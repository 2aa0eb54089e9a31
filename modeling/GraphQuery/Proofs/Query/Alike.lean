import GraphQuery.Proofs.Query.Pieces

/-!
# Pieces with the same text

Pieces are alike when they are the same texts and have values in the same places. Alike pieces have
the same text and the same names for their values, wherever the numbering starts. Terms are alike
when they are written by alike pieces at every place, up to a renaming of the scopes.
-/

namespace GraphQuery

/-- The same text, or any two values. -/
inductive Piece.Alike : Piece → Piece → Prop
  | text (content : String) : Alike (.text content) (.text content)
  | value (v w : Json) : Alike (.value v) (.value w)

/-- Pieces that are alike one by one. -/
abbrev PiecesAlike : List Piece → List Piece → Prop := List.Forall₂ Piece.Alike

namespace PiecesAlike

variable {ps qs ps' qs' : List Piece}

theorem single (content : String) : PiecesAlike [.text content] [.text content] :=
  .cons (.text content) .nil

theorem append (first : PiecesAlike ps qs) (second : PiecesAlike ps' qs') :
    PiecesAlike (ps ++ ps') (qs ++ qs') :=
  List.rel_append first second

theorem separated (separator : String) {groups groups' : List (List Piece)}
    (alike : List.Forall₂ PiecesAlike groups groups') :
    PiecesAlike (Piece.separated separator groups) (Piece.separated separator groups') := by
  induction alike with
  | nil => exact .nil
  | cons head tail ih =>
      cases tail with
      | nil => exact head
      | cons next more => exact head.append (.cons (.text separator) ih)

theorem between (opening closing : String) (alike : PiecesAlike ps qs) :
    PiecesAlike (Piece.between opening closing ps) (Piece.between opening closing qs) :=
  append (.cons (.text opening) alike) (single closing)

/-- A segment goes into the text of its base when the base is one text, and behind it otherwise;
alike bases agree on that. -/
theorem join (segment : String) (alike : PiecesAlike ps qs) :
    PiecesAlike (Piece.join ps segment) (Piece.join qs segment) := by
  cases alike with
  | nil => exact single segment
  | cons head tail =>
      cases head with
      | value v w => exact append (.cons (.value v w) tail) (single segment)
      | text content =>
          cases tail with
          | nil => exact single (joinPath content segment)
          | cons next more =>
              exact append (.cons (.text content) (.cons next more)) (single segment)

theorem objectLiteral {entries entries' : List (List Piece)}
    (alike : List.Forall₂ PiecesAlike entries entries') :
    PiecesAlike (Term.objectLiteral entries) (Term.objectLiteral entries') := by
  cases alike with
  | nil => exact single _
  | cons head tail => exact between _ _ (separated ", " (.cons head tail))

/-- PiecesAlike pieces have the same texts, and names for as many values. -/
theorem numbered (alike : PiecesAlike ps qs) (n : Nat) :
    Compiled.textsFrom n ps = Compiled.textsFrom n qs ∧
      (Compiled.valuesFrom n ps).map Prod.fst = (Compiled.valuesFrom n qs).map Prod.fst := by
  induction alike generalizing n with
  | nil => exact ⟨rfl, rfl⟩
  | cons head tail ih =>
      cases head with
      | text content =>
          obtain ⟨texts, names⟩ := ih n
          exact ⟨congrArg (content :: ·) texts, names⟩
      | value v w =>
          obtain ⟨texts, names⟩ := ih (n + 1)
          exact ⟨congrArg (placeholder n :: ·) texts, congrArg (variableName n :: ·) names⟩

end PiecesAlike

/-- The place that corresponds to this one when scopes are renamed. -/
def Scopes.rename (rename : ScopeId → ScopeId) (scopes : Scopes) : Scopes :=
  ⟨scopes.current.map rename, scopes.parent.map rename⟩

/-- Distinct scopes stay distinct, so the record of a scope is written as before. -/
theorem Scopes.record_rename {rename : ScopeId → ScopeId} (injective : Function.Injective rename)
    (scopes : Scopes) (scope : ScopeId) :
    (scopes.rename rename).record (rename scope) = scopes.record scope := by
  obtain ⟨current, parent⟩ := scopes
  cases current with
  | none => rfl
  | some current => simp [Scopes.record, Scopes.rename, injective.eq_iff]

/-- Terms that are written alike. -/
structure Term.Alike (rename : ScopeId → ScopeId) (t u : Term) : Prop where
  atomic : t.isAtomic = u.isAtomic
  pieces : ∀ scopes : Scopes, PiecesAlike (t.pieces scopes) (u.pieces (scopes.rename rename))

/-- Parts of layouts: the same texts, any values, and related terms. -/
inductive Part.Related (R : Term → Term → Prop) : Part → Part → Prop
  | text (content : String) : Related R (.text content) (.text content)
  | value (v w : Json) : Related R (.value v) (.value w)
  | term {t u : Term} : R t u → Related R (.term t) (.term u)
  | operand {t u : Term} : R t u → Related R (.operand t) (.operand u)

/-- Layouts that are related part by part. -/
abbrev Layout.Related (R : Term → Term → Prop) : Layout → Layout → Prop :=
  List.Forall₂ (Part.Related R)

namespace Term.Alike

variable {rename : ScopeId → ScopeId} {t u : Term} {ts us : List Term}

theorem operand (alike : t.Alike rename u) (scopes : Scopes) :
    PiecesAlike (t.operandPieces scopes) (u.operandPieces (scopes.rename rename)) := by
  unfold Term.operandPieces Term.enclose
  rw [alike.atomic]
  split
  · exact alike.pieces scopes
  · exact (alike.pieces scopes).between _ _

theorem each (alike : List.Forall₂ (Term.Alike rename) ts us) (scopes : Scopes) :
    List.Forall₂ PiecesAlike (ts.map (Term.pieces scopes))
      (us.map (Term.pieces (scopes.rename rename))) := by
  refine List.rel_map ?_ alike
  intro t u alike
  exact alike.pieces scopes

theorem eachOperand (alike : List.Forall₂ (Term.Alike rename) ts us) (scopes : Scopes) :
    List.Forall₂ PiecesAlike (ts.map (Term.operandPieces scopes))
      (us.map (Term.operandPieces (scopes.rename rename))) := by
  refine List.rel_map ?_ alike
  intro t u alike
  exact alike.operand scopes

/-- The four ways of writing an application. -/
theorem application (form : Form) (receiver : t.Alike rename u)
    (arguments : List.Forall₂ (Term.Alike rename) ts us) (scopes : Scopes) :
    PiecesAlike
      (Term.application form t (t.pieces scopes) ts (ts.map (Term.pieces scopes)))
      (Term.application form u (u.pieces (scopes.rename rename)) us
        (us.map (Term.pieces (scopes.rename rename)))) := by
  have written := receiver.pieces scopes
  have enclosed := receiver.operand scopes
  cases form with
  | between token =>
      rw [Term.application, Term.application, Term.zipWith_enclose, Term.zipWith_enclose]
      exact enclosed.append
        (.cons (.text _) (PiecesAlike.separated _ (eachOperand arguments scopes)))
  | before token => exact .cons (.text token) enclosed
  | call path =>
      have inner := PiecesAlike.separated ", " (.cons written (each arguments scopes))
      exact .cons (.text _) (inner.append (.single ")"))
  | callSeparated path =>
      have leading := List.forall₂_take 1 (each arguments scopes)
      have others := List.forall₂_drop 1 (each arguments scopes)
      have inner := PiecesAlike.separated ", " (List.rel_append leading (.cons written others))
      exact .cons (.text _) (inner.append (.single ")"))

end Term.Alike

end GraphQuery
