import GraphQuery.Proofs.Statement.Rendering

/-!
# Raw values stay out of the text

Two runs that make the same calls on raw values of their own compile to the same text. Their
variables have the same names, and only what is bound to them differs. So no raw value can change
what a query says, however it is chosen.
-/

namespace GraphQuery.Statement

variable {rename : ScopeId → ScopeId}

theorem Related.pieces {s t : Statement} (alike : Related (Expr.Alike rename) rename s t)
    (scopes : Scopes) : PiecesAlike (s.pieces scopes) (t.pieces (scopes.rename rename)) := by
  unfold Statement.pieces
  rw [alike.scope_eq]
  exact alike.layout.pieces (scopes.enter s.scope)

/-- Alike statements are alike in a transaction, each outside of the scopes of the others. -/
theorem batchPieces_alike {ss ts : List Statement}
    (alike : List.Forall₂ (Related (Expr.Alike rename) rename) ss ts) :
    PiecesAlike (batchPieces ss) (batchPieces ts) := by
  have bodies : PiecesAlike (lines ss) (lines ts) := by
    induction alike with
    | nil => exact .nil
    | cons head tail ih =>
        rw [lines, lines, List.flatMap_cons, List.flatMap_cons]
        exact ((head.pieces .outermost).append (.single ";\n")).append ih
  exact PiecesAlike.append (.cons (.text _) bodies) (.single _)

/-- Two runs of the same calls compile to the same text with the same variable names, whatever raw
values they are given: one statement, and any list of statements in a transaction. A run hands out
every scope once, so the renaming keeps distinct scopes distinct. -/
theorem text_depends_on_calls_alone (injective : Function.Injective rename) :
    (∀ {s t : Statement}, SameStatement rename s t →
      s.compile.text = t.compile.text ∧
        s.compile.vars.map Prod.fst = t.compile.vars.map Prod.fst) ∧
    ∀ {ss ts : List Statement}, List.Forall₂ (SameStatement rename) ss ts →
      (compileBatch ss).text = (compileBatch ts).text ∧
        (compileBatch ss).vars.map Prod.fst = (compileBatch ts).vars.map Prod.fst := by
  have congruence := Term.Alike.congruence injective
  refine ⟨?_, ?_⟩
  · intro s t same
    have alike := (same.respect congruence).pieces .outermost
    obtain ⟨texts, names⟩ := alike.numbered 0
    rw [same.rendered.1.compile_eq, same.rendered.2.compile_eq]
    exact ⟨congrArg String.join texts, names⟩
  · intro ss ts same
    have related : List.Forall₂ (Related (Expr.Alike rename) rename) ss ts := by
      refine same.imp ?_
      intro s t same
      exact same.respect congruence
    obtain ⟨texts, names⟩ := (batchPieces_alike related).numbered 0
    obtain ⟨left, right⟩ := forall_mem_and_of_forall₂ (same.imp fun s t same => same.rendered)
    rw [compileBatch_eq left, compileBatch_eq right]
    exact ⟨congrArg String.join texts, names⟩

/-- A number in one run, text that looks like query text in the other. -/
theorem text_of_two_removals :
    ∃ s t : Statement,
      People.removal ⟨0⟩ ⟨1⟩ (.int 18) 5 = .ok s ∧
      People.removal ⟨10⟩ ⟨11⟩ (.string "0; REMOVE TABLE person") 7 = .ok t ∧
      s.compile.text = t.compile.text ∧
        (compileBatch [s, s]).text = (compileBatch [t, t]).text := by
  let later : ScopeId → ScopeId := fun scope => ⟨scope.number + 10⟩
  have injective : Function.Injective later := by
    intro a b equal
    have numbers : a.number + 10 = b.number + 10 := congrArg ScopeId.number equal
    have number : a.number = b.number := by omega
    exact congrArg ScopeId.mk number
  obtain ⟨single, batch⟩ := text_depends_on_calls_alone injective
  refine ⟨_, _, rfl, rfl, ?_, ?_⟩
  · exact (single (People.sameStatement_removal rfl rfl)).1
  · refine (batch (.cons ?_ (.cons ?_ .nil))).1
    · exact People.sameStatement_removal rfl rfl
    · exact People.sameStatement_removal rfl rfl

end GraphQuery.Statement
