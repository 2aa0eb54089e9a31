import GraphQuery.Proofs.Fields.Lookup
import GraphQuery.Proofs.Query.Pieces
import GraphQuery.Proofs.Query.Reading
import GraphQuery.Query.Display

/-!
# What rendering writes

Rendering binds values while it runs, and what it returns is put into a text later on. `Writes` says
that the two happen in one order: the text is that of pieces whose values are numbered from the
counter on, and just these values are bound, one after the other, under the names that stand in the
text. The invariant is that the counter is the number of variables and that they have the names of
the numbers below it. Each way of putting renderers together keeps it.
-/

namespace GraphQuery

/-! ## The counter -/

namespace DisplayContext

/-- The variables have the names of the numbers below the counter, in order. -/
def Numbered (d : DisplayContext) : Prop :=
  Fields.names d.vars = (List.range d.counter).map variableName

/-- The context behind more variables. -/
def extend (d : DisplayContext) (more : List (String × Json)) : DisplayContext :=
  { d with vars := d.vars ++ more, counter := d.counter + more.length }

variable {d : DisplayContext}

theorem numbered_new : new.Numbered := rfl

@[simp] theorem extend_nil (d : DisplayContext) : d.extend [] = d := by
  unfold extend
  rw [List.append_nil]
  rfl

theorem extend_append (d : DisplayContext) (first second : List (String × Json)) :
    d.extend (first ++ second) = (d.extend first).extend second := by
  unfold extend
  rw [List.length_append, ← List.append_assoc, ← Nat.add_assoc]

/-- The variables of pieces that are numbered from the counter on carry the numbering on. -/
theorem Numbered.extend (numbered : d.Numbered) (ps : List Piece) :
    (d.extend (Compiled.valuesFrom d.counter ps)).Numbered := by
  have bound : Fields.names (Compiled.valuesFrom d.counter ps) =
      (List.range' d.counter (Compiled.valuesFrom d.counter ps).length).map variableName := by
    rw [Compiled.valuesFrom_eq, Fields.names, List.map_map, List.length_map, List.length_zipIdx,
      ← List.zipIdx_map_snd d.counter, List.map_map]
    rfl
  have names : Fields.names (d.vars ++ Compiled.valuesFrom d.counter ps) =
      Fields.names d.vars ++ Fields.names (Compiled.valuesFrom d.counter ps) := List.map_append
  unfold Numbered DisplayContext.extend
  rw [names, numbered, bound, ← List.map_append, List.range_eq_range', List.range_eq_range',
    ← List.range'_append_1, Nat.zero_add]

/-- The name of the next variable is not used yet. -/
theorem Numbered.fresh (numbered : d.Numbered) : variableName d.counter ∉ Fields.names d.vars := by
  rw [numbered]
  intro member
  obtain ⟨n, below, same⟩ := List.mem_map.mp member
  rw [Reading.variableName_injective same] at below
  exact absurd (List.mem_range.mp below) (Nat.lt_irrefl _)

end DisplayContext

/-! ## One rendering after another -/

namespace Rendering

/-- Render one thing, then another, and write them one behind the other. -/
def append (r r' : Rendering String) : Rendering String := do
  let first ← r
  let second ← r'
  return first ++ second

/-- Render all, then write them with a separator between them. -/
def joined {α : Type} (separator : String) (f : α → Rendering String) (as : List α) :
    Rendering String := do
  let texts ← as.mapM f
  return separator.intercalate texts

variable {α : Type}

theorem run_append (r r' : Rendering String) (d : DisplayContext) :
    (append r r').run d =
      ((r.run d).1 ++ (r'.run (r.run d).2).1, (r'.run (r.run d).2).2) := rfl

@[simp] theorem empty_append (r : Rendering String) : append (pure "") r = r := by
  simp only [append, pure_bind, String.empty_append, bind_pure]

@[simp] theorem append_empty (r : Rendering String) : append r (pure "") = r := by
  simp only [append, pure_bind, String.append_empty, bind_pure]

theorem append_assoc (r s t : Rendering String) :
    append (append r s) t = append r (append s t) := by
  simp only [append, bind_assoc, pure_bind, String.append_assoc]

theorem joined_single (separator : String) (f : α → Rendering String) (a : α) :
    joined separator f [a] = f a := by
  simp [joined]

/-- To render all and write them afterwards is to write each where it is rendered. -/
theorem joined_cons_cons (separator : String) (f : α → Rendering String) (a b : α) (rest : List α) :
    joined separator f (a :: b :: rest) =
      append (f a) (append (pure separator) (joined separator f (b :: rest))) := by
  simp [joined, append, String.intercalate_cons_cons, String.append_assoc]

end Rendering

/-! ## Writing pieces -/

/-- At a place, rendering writes the text of the pieces, with their values numbered from the counter
on, and binds these values. It leaves the place as it was. -/
def Writes (scopes : Scopes) (r : Rendering String) (ps : List Piece) : Prop :=
  ∀ d : DisplayContext, d.Numbered → d.toScopes = scopes →
    r.run d = ((Compiled.numberFrom d.counter ps).text, d.extend (Compiled.valuesFrom d.counter ps))

namespace Writes

variable {scopes : Scopes} {r r' : Rendering String} {ps qs : List Piece}

theorem text (content : String) : Writes scopes (pure content) [.text content] := by
  intro d _ _
  have single : (Compiled.numberFrom d.counter [.text content]).text = content := by
    simp [Compiled.numberFrom, Compiled.textsFrom]
  rw [single, Compiled.valuesFrom, Compiled.valuesFrom, DisplayContext.extend_nil]
  rfl

theorem empty : Writes scopes (pure "") [] := by
  intro d _ _
  rw [Compiled.valuesFrom, DisplayContext.extend_nil]
  rfl

/-- A value is bound to the variable whose placeholder is written: its name is new, so nothing that
was bound before is lost. -/
theorem value (v : Json) : Writes scopes (DisplayContext.bind v) [.value v] := by
  intro d numbered _
  have bound : Fields.insert d.vars (variableName d.counter) v = d.vars ++ [(variableName d.counter, v)] :=
    Fields.insert_of_fresh numbered.fresh
  have single : (Compiled.numberFrom d.counter [.value v]).text = placeholder d.counter := by
    simp [Compiled.numberFrom, Compiled.textsFrom]
  show (placeholder d.counter, { d with vars := Fields.insert d.vars (variableName d.counter) v,
                                        counter := d.counter + 1 }) = _
  rw [bound, single]
  rfl

/-- What is rendered second finds the counter behind the values of what was rendered first. -/
theorem append (first : Writes scopes r ps) (second : Writes scopes r' qs) :
    Writes scopes (Rendering.append r r') (ps ++ qs) := by
  intro d numbered place
  have here := first d numbered place
  have there := second (d.extend (Compiled.valuesFrom d.counter ps)) (numbered.extend ps) place
  have counter : (d.extend (Compiled.valuesFrom d.counter ps)).counter =
      d.counter + (Piece.values ps).length := by
    rw [DisplayContext.extend, Compiled.length_valuesFrom]
  rw [counter] at there
  rw [Rendering.run_append, here, there, Compiled.numberFrom_append, Compiled.valuesFrom_append,
    DisplayContext.extend_append]

/-- Text in front of what is rendered. -/
theorem cons (content : String) (writes : Writes scopes r ps) :
    Writes scopes (Rendering.append (pure content) r) (.text content :: ps) :=
  (text content).append writes

theorem between (opening closing : String) (writes : Writes scopes r ps) :
    Writes scopes (Rendering.append (pure opening) (Rendering.append r (pure closing)))
      (Piece.between opening closing ps) :=
  cons opening (writes.append (text closing))

/-- Things are rendered in the order in which they are written. -/
theorem joined {α : Type} {f : α → Rendering String} {as : List α} {groups : List (List Piece)}
    (separator : String) (each : List.Forall₂ (fun a group => Writes scopes (f a) group) as groups) :
    Writes scopes (Rendering.joined separator f as) (Piece.separated separator groups) := by
  induction each with
  | nil => exact empty
  | cons first rest ih =>
      cases rest with
      | nil =>
          rw [Rendering.joined_single]
          exact first
      | cons second more =>
          rw [Rendering.joined_cons_cons]
          exact first.append (cons separator ih)

/-- Inside a statement its scope is the current one; behind it the place is what it was before. -/
theorem within {scope : ScopeId} (writes : Writes (scopes.enter scope) r ps) :
    Writes scopes (DisplayContext.within scope r) ps := by
  intro d numbered place
  have inner := writes { d with toScopes := d.toScopes.enter scope } numbered (by rw [place])
  show ((r.run { d with toScopes := d.toScopes.enter scope }).1,
    { (r.run { d with toScopes := d.toScopes.enter scope }).2 with toScopes := d.toScopes }) = _
  rw [inner]
  rfl

/-- On a new context the values are numbered from zero on. -/
theorem compiled (writes : Writes .outermost r ps) : r.compiled = .ofPieces ps := by
  have run := writes .new DisplayContext.numbered_new rfl
  show Compiled.mk (r.run .new).1 (r.run .new).2.vars = _
  rw [run]
  rfl

end Writes

end GraphQuery
