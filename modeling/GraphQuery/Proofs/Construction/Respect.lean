import GraphQuery.Proofs.Construction.Calls
import GraphQuery.Proofs.Construction.Openings
import GraphQuery.Proofs.Construction.SameCalls

/-!
# Same calls, related statements

Two runs of the same calls end in terms that every congruence relates, and in statements all of whose
parts it relates. The induction is on the calls of the runs: on expressions and statements at once,
since each is made of the other, and on everything that holds expressions.
-/

namespace GraphQuery

variable {rename : ScopeId → ScopeId} {R : Term → Term → Prop}

theorem Congruence.record_of (congruence : Congruence rename R) {s t : Statement}
    (alike : Statement.Related (Termwise R) rename s t) : Termwise R s.record t.record := by
  have scopes := congruence.record s.scope
  rw [← alike.scope_eq] at scopes
  cases alike <;> exact scopes

/-- The same method on receivers of two runs is one operation, which both receivers have. -/
theorem Congruence.called (congruence : Congruence rename R) {name : String}
    {e f e' f' : Expr} {as bs : List Operand} (receiver : Termwise R e f)
    (arguments : List.Forall₂ (Operand.Related (Termwise R)) as bs)
    (same : e.type.method? name = f.type.method? name)
    (left : e.call name as = .ok e') (right : f.call name bs = .ok f') : Termwise R e' f' := by
  unfold Expr.call at left right
  rw [← same] at right
  cases found : e.type.method? name with
  | none =>
      rw [found] at left
      cases left
  | some op =>
      rw [found] at left right
      -- The table has no operation but those a congruence is asked for.
      have known := Descriptor.method?_mem_all found
      dsimp only at left right
      split at left
      · split at right
        · cases left
          cases right
          exact congruence.applied known receiver arguments
        · cases right
      · cases left

mutual

theorem SameExpr.respect (congruence : Congruence rename R) {e f : Expr} :
    SameExpr rename e f → Termwise R e f
  | .record same => congruence.record_of (same.respect congruence)
  | .rejected _ => congruence.input
  | .lift _ operand => congruence.lift (operand.respect congruence) _ _
  | .get _ key same => congruence.get key (same.respect congruence)
  | .operator known _ receiver arguments =>
      congruence.applied (List.mem_append_left _ known) (receiver.respect congruence)
        (arguments.respect congruence)
  | .method _ receiver arguments same left right =>
      congruence.called (receiver.respect congruence)
        (arguments.respect congruence) same left right
  | .cast _ same => same.respect congruence
  | .lower _ shape => (shape.respect congruence).lower congruence _ _
  | .query _ same => congruence.query (same.respect congruence)

theorem Operand.Related.respect (congruence : Congruence rename R) {a b : Operand} :
    Operand.Related (SameExpr rename) a b → Operand.Related (Termwise R) a b
  | .expr same => .expr (same.respect congruence)
  | .value v w => .value v w

theorem Operand.RelatedEach.respect (congruence : Congruence rename R) {as bs : List Operand} :
    Operand.RelatedEach (SameExpr rename) as bs →
    List.Forall₂ (Operand.Related (Termwise R)) as bs
  | .nil => .nil
  | .cons same rest => .cons (same.respect congruence) (rest.respect congruence)

theorem Shape.Related.respect (congruence : Congruence rename R) {a b : Shape} :
    Shape.Related (SameExpr rename) a b → Shape.Related (Termwise R) a b
  | .expr same => .expr (same.respect congruence)
  | .value v w => .value v w
  | .object entries => .object (entries.respect congruence)
  | .array items => .array (items.respect congruence)

theorem Shape.RelatedEntries.respect (congruence : Congruence rename R)
    {es fs : List (String × Shape)} :
    Shape.RelatedEntries (SameExpr rename) es fs → Shape.RelatedEntries (Termwise R) es fs
  | .nil => .nil
  | .cons same rest => .cons (same.respect congruence) (rest.respect congruence)

theorem Shape.RelatedItems.respect (congruence : Congruence rename R) {as bs : List Shape} :
    Shape.RelatedItems (SameExpr rename) as bs → Shape.RelatedItems (Termwise R) as bs
  | .nil => .nil
  | .cons same rest => .cons (same.respect congruence) (rest.respect congruence)

theorem Target.Related.respect (congruence : Congruence rename R) {a b : Target} :
    Target.Related (SameExpr rename) a b → Target.Related (Termwise R) a b
  | .table name => .table name
  | .record ref other => .record ref other
  | .expr same => .expr (same.respect congruence)

theorem ReturnMode.Related.respect (congruence : Congruence rename R) {m n : ReturnMode} :
    ReturnMode.Related (SameExpr rename) m n → ReturnMode.Related (Termwise R) m n
  | .none => .none
  | .before => .before
  | .after => .after
  | .diff => .diff
  | .value same => .value (same.respect congruence)

theorem Call.Related.respect (congruence : Congruence rename R) {c d : Call} :
    Call.Related (SameExpr rename) c d → Call.Related (Termwise R) c d
  | .only => .only
  | .filter same => .filter (same.respect congruence)
  | .returnMode mode => .returnMode (mode.respect congruence)
  | .returning shape => .returning (shape.respect congruence)
  | .timeout span => .timeout span
  | .parallel => .parallel
  | .assign field op value => .assign field op (value.respect congruence)
  | .content v w => .content v w
  | .merge v w => .merge v w
  | .replace v w => .replace v w
  | .patch ps qs => .patch ps qs
  | .fields names => .fields names
  | .project shape => .project (shape.respect congruence)
  | .splitOn paths => .splitOn paths
  | .groupBy paths => .groupBy paths
  | .groupAll => .groupAll
  | .orderBy direction same => .orderBy direction (same.respect congruence)
  | .orderByField path direction collate numeric => .orderByField path direction collate numeric
  | .limit m n => .limit m n
  | .start m n => .start m n
  | .fetch paths => .fetch paths
  | .ignore => .ignore
  | .values vs ws => .values vs ws
  | .onDuplicate field value => .onDuplicate field (value.respect congruence)
  | .onDuplicateWith field op same => .onDuplicateWith field op (same.respect congruence)

/-- Two runs of the same calls end in statements with related parts. -/
theorem SameStatement.respect (congruence : Congruence rename R) {s t : Statement} :
    SameStatement rename s t → Statement.Related (Termwise R) rename s t
  | .select _ _ target left right => .select (.of (target.respect congruence) left right)
  | .create _ _ target left right => .create (.of (target.respect congruence) left right)
  | .update _ _ _ target left right => .update (.of (target.respect congruence) left right)
  | .delete _ _ target left right => .delete (.of (target.respect congruence) left right)
  | .insert _ _ _ left right => .insert (.of left right)
  | .insertEdge _ _ _ left right => .insert (.ofEdge left right)
  | .relate _ _ _ source target left right =>
      .relate (.of (source.respect congruence) (target.respect congruence) left right)
  | .call same calls left right =>
      (same.respect congruence).call congruence (calls.respect congruence) left right

end

end GraphQuery
