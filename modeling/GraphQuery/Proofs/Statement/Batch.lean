import GraphQuery.Proofs.Statement.Binding

/-!
# A transaction is the sum of its statements

Compiling statements as one transaction gives the statements as they are compiled alone, one a line,
with the variables of each numbered from where those of the statements before it stop. Nothing else
of a statement is seen by the next one.
-/

namespace GraphQuery.Statement

/-- How many variables the statements before a position have. -/
def variablesBefore (statements : List Statement) (i : Nat) : Nat :=
  ((statements.take i).flatMap fun s => s.compile.vars).length

/-- The statements compiled alone, each with its variables behind those of the ones before it; the
first is numbered from `n` on. -/
def compileEach (n : Nat) (statements : List Statement) : List Compiled :=
  statements.mapIdx fun i s => s.compile.shift (n + variablesBefore statements i)

theorem compileEach_cons (n : Nat) (s : Statement) (rest : List Statement) :
    compileEach n (s :: rest) =
      s.compile.shift n :: compileEach (n + s.compile.vars.length) rest := by
  have before : ∀ i, n + variablesBefore (s :: rest) (i + 1) =
      n + s.compile.vars.length + variablesBefore rest i := by
    intro i
    rw [variablesBefore, List.take_succ_cons, List.flatMap_cons, List.length_append,
      ← Nat.add_assoc]
    rfl
  unfold compileEach
  rw [List.mapIdx_cons]
  simp only [before]
  rfl

/-- A statement that is numbered from `n` on is the statement compiled alone, shifted by `n`. -/
theorem Built.shift_compile {s : Statement} (built : s.Built) (n : Nat) :
    s.compile.shift n = Compiled.numberFrom n (s.pieces .outermost) := by
  have shifted := Compiled.shift_numberFrom (built.legible .outermost) n 0
  rw [Nat.zero_add] at shifted
  rw [built.rendered.compile_eq]
  exact shifted

/-- Rendered on the context that other statements leave, a statement is what it is when it is compiled
alone, with all numbers shifted by the counter. It binds its variables behind those that are there, and
leaves the scopes as it finds them. -/
theorem Built.run_render {s : Statement} (built : s.Built) {d : DisplayContext}
    (numbered : d.Numbered) (outside : d.toScopes = .outermost) :
    s.render.run d =
      ((s.compile.shift d.counter).text, d.extend (s.compile.shift d.counter).vars) := by
  rw [built.rendered .outermost d numbered outside, built.shift_compile]
  rfl

/-- The counter stays the number of the variables. -/
theorem Built.numbered_render {s : Statement} (built : s.Built) {d : DisplayContext}
    (numbered : d.Numbered) : (d.extend (s.compile.shift d.counter).vars).Numbered := by
  rw [built.shift_compile]
  exact numbered.extend _

/-- The statements of a transaction on any context. The induction is on the statements; each takes the
counter from where it finds it and leaves it behind its own variables. -/
theorem run_foldlM_renderLine {statements : List Statement} (built : ∀ s ∈ statements, s.Built)
    {d : DisplayContext} (numbered : d.Numbered) (outside : d.toScopes = .outermost) (text : String) :
    (statements.foldlM renderLine text).run d =
      (text ++ String.join ((compileEach d.counter statements).map fun c => c.text ++ ";\n"),
        d.extend ((compileEach d.counter statements).flatMap Compiled.vars)) := by
  induction statements generalizing d text with
  | nil =>
      show (text, d) = (text ++ "", d.extend [])
      rw [String.append_empty, DisplayContext.extend_nil]
  | cons s rest ih =>
      have here := built s List.mem_cons_self
      -- The rest starts where the counter stands behind the first statement.
      have counter : (d.extend (s.compile.shift d.counter).vars).counter =
          d.counter + s.compile.vars.length := by
        rw [DisplayContext.extend, Compiled.shift, List.length_map]
      have others := ih (fun t member => built t (List.mem_cons_of_mem s member))
        (here.numbered_render numbered) outside (text ++ (s.compile.shift d.counter).text ++ ";\n")
      rw [counter] at others
      have step : ((s :: rest).foldlM renderLine text).run d =
          (rest.foldlM renderLine (text ++ (s.render.run d).1 ++ ";\n")).run (s.render.run d).2 := rfl
      rw [step, here.run_render numbered outside, others, compileEach_cons, List.map_cons,
        List.flatMap_cons, String.join_cons, DisplayContext.extend_append]
      simp only [String.append_assoc]

/-- The text of a transaction is the texts of its statements, one a line between its brackets, and
its variables are those of its statements one after the other; the placeholders and the variables of
each statement are renumbered by the number of all variables before it. Whatever has been rendered
before, each statement only shifts its numbers by the counter and leaves the scopes as they are. -/
theorem compileBatch_eq_compileEach {statements : List Statement}
    (built : ∀ s ∈ statements, s.Built) :
    (compileBatch statements).text =
        "BEGIN TRANSACTION;\n" ++
          String.join ((compileEach 0 statements).map fun c => c.text ++ ";\n") ++
          "COMMIT TRANSACTION;" ∧
      (compileBatch statements).vars = (compileEach 0 statements).flatMap Compiled.vars ∧
      ∀ s ∈ statements, ∀ d : DisplayContext, d.Numbered → d.toScopes = .outermost →
        s.render.run d =
          ((s.compile.shift d.counter).text, d.extend (s.compile.shift d.counter).vars) := by
  have run := run_foldlM_renderLine built DisplayContext.numbered_new rfl "BEGIN TRANSACTION;\n"
  have compiled : compileBatch statements =
      ⟨((statements.foldlM renderLine "BEGIN TRANSACTION;\n").run .new).1 ++ "COMMIT TRANSACTION;",
        ((statements.foldlM renderLine "BEGIN TRANSACTION;\n").run .new).2.vars⟩ := rfl
  rw [compiled, run]
  refine ⟨rfl, rfl, ?_⟩
  intro s member d numbered outside
  exact (built s member).run_render numbered outside

/-- The second of two runs of one construction has its variables behind those of the first. -/
theorem compileBatch_of_two_removals :
    ∃ s t : Statement,
      People.removal ⟨0⟩ ⟨1⟩ (.int 18) 5 = .ok s ∧ People.removal ⟨2⟩ ⟨3⟩ (.int 65) 9 = .ok t ∧
      (compileBatch [s, t]).text =
        "BEGIN TRANSACTION;\n" ++
          String.join ([s.compile.shift 0, t.compile.shift 2].map fun c => c.text ++ ";\n") ++
          "COMMIT TRANSACTION;" ∧
      (compileBatch [s, t]).vars =
        [("_v0", .int 18), ("_v1", .int 5), ("_v2", .int 65), ("_v3", .int 9)] := by
  have built {s t : Statement} (first : People.removal ⟨0⟩ ⟨1⟩ (.int 18) 5 = .ok s)
      (second : People.removal ⟨2⟩ ⟨3⟩ (.int 65) 9 = .ok t) : ∀ u ∈ [s, t], u.Built := by
    intro u member
    rcases List.mem_pair.mp member with rfl | rfl
    · exact People.sameStatement_removal first first
    · exact People.sameStatement_removal second second
  obtain ⟨text, vars, _⟩ := compileBatch_eq_compileEach (built rfl rfl)
  exact ⟨_, _, rfl, rfl, text, vars⟩

end GraphQuery.Statement
