import GraphQuery.Proofs.Construction.Related

/-!
# Relations that terms respect

A `Congruence` is a relation of terms that every way of making terms carries on: what is made of
related parts is related. It is asked only for the operations there are, and for sub-queries only
when all parts of the two statements are related.
-/

namespace GraphQuery

/-- All operations: those on values of any shape, and those of the families. -/
def Operation.all : List Operation :=
  Operation.universal ++
    [Family.string, Family.number, Family.array, Family.date, Family.record].flatMap
      Family.operations

/-- The token or the path of a form. -/
def Form.text : Form → String
  | .between token => token
  | .before token => token
  | .call path => path
  | .callSeparated path => path

/-- What is written in front of its operand is a negation, or two of them. -/
theorem Operation.exclamation_of_before {op : Operation} (known : op ∈ Operation.all)
    {token : String} (form : op.form = .before token) : '!' ∈ token.toList := by
  have each : ∀ op ∈ Operation.all, op.form = .before op.form.text → '!' ∈ op.form.text.toList := by
    decide +kernel
  have marked := each op known
  rw [form] at marked
  exact marked rfl

theorem Family.operations_subset_all (family : Family) {op : Operation}
    (own : op ∈ family.operations) : op ∈ Operation.all := by
  unfold Operation.all
  refine List.mem_append_right _ (List.mem_flatMap.mpr ⟨family, ?_, own⟩)
  cases family <;> simp

/-- Looking up a method gives nothing but the operations there are. -/
theorem Descriptor.method?_mem_all {t : Descriptor} {name : String} {op : Operation}
    (found : t.method? name = some op) : op ∈ Operation.all := by
  unfold Descriptor.method? at found
  rw [Option.orElse_eq_orElse, Option.orElse_eq_or] at found
  rcases Option.or_eq_some_iff.mp found with own | ⟨_, universal⟩
  · have member := List.mem_of_find?_eq_some own
    unfold Descriptor.familyOperations at member
    split at member
    · next family _ => exact family.operations_subset_all member
    · cases member
  · exact List.mem_append_left _ (List.mem_of_find?_eq_some universal)

/-- Expressions with related terms. -/
def Termwise (R : Term → Term → Prop) (e f : Expr) : Prop := R e.term f.term

/-- Terms made of related parts are related. -/
structure Congruence (rename : ScopeId → ScopeId) (R : Term → Term → Prop) : Prop where
  record : ∀ scope, R (.record scope) (.record (rename scope))
  input : R .input .input
  fieldPath : ∀ path, R (.fieldPath path) (.fieldPath path)
  value : ∀ v w, R (.value v) (.value w)
  get : ∀ {t u : Term} (key : Key), R t u → R (.get t key) (.get u key)
  apply : ∀ {op : Operation} {t u : Term} {ts us : List Term}, op ∈ Operation.all → R t u →
    List.Forall₂ R ts us → R (.apply op t ts) (.apply op u us)
  object : ∀ {es fs : List (String × Term)},
    List.Forall₂ (fun a b => a.1 = b.1 ∧ R a.2 b.2) es fs → R (.object es) (.object fs)
  array : ∀ {ts us : List Term}, List.Forall₂ R ts us → R (.array ts) (.array us)
  query : ∀ {s t : Statement}, Statement.Related (Termwise R) rename s t →
    R (.query s.scope s.layout) (.query t.scope t.layout)

variable {rename : ScopeId → ScopeId} {R : Term → Term → Prop}

namespace Congruence

theorem lift (congruence : Congruence rename R) {a b : Operand}
    (alike : Operand.Related (Termwise R) a b) (scope scope' : ScopeId) :
    Termwise R (a.lift scope) (b.lift scope') := by
  cases alike with
  | expr alike => exact alike
  | value v w => exact congruence.value v w

theorem applied (congruence : Congruence rename R) {op : Operation} {e f : Expr}
    {as bs : List Operand} (known : op ∈ Operation.all) (receiver : Termwise R e f)
    (arguments : List.Forall₂ (Operand.Related (Termwise R)) as bs) :
    Termwise R (e.apply op as) (f.apply op bs) := by
  refine congruence.apply known receiver ?_
  refine List.rel_map ?_ arguments
  intro a b alike
  exact congruence.lift alike e.scope f.scope

theorem conjoin (congruence : Congruence rename R) {c d : Option Expr} {e f : Expr}
    (conditions : Option.Rel (Termwise R) c d) (next : Termwise R e f) :
    Option.Rel (Termwise R) (Expr.conjoin c e) (Expr.conjoin d f) := by
  have known : Operation.and ∈ Operation.all := by decide
  cases conditions with
  | none => exact .some next
  | some first => exact .some (congruence.applied known first (.cons (.expr next) .nil))

end Congruence

mutual

/-- A shape is lowered to a literal of what its leaves are lowered to. -/
theorem Shape.Related.lower (congruence : Congruence rename R) (scope scope' : ScopeId)
    {a b : Shape} : Shape.Related (Termwise R) a b →
    Termwise R (a.lower scope) (b.lower scope')
  | .expr alike => alike
  | .value v w => congruence.value v w
  | .object entries => by
      refine congruence.object ?_
      refine List.rel_map ?_ (entries.lower congruence scope scope')
      intro x y alike
      exact alike
  | .array items => by
      refine congruence.array ?_
      refine List.rel_map ?_ (items.lower congruence scope scope')
      intro x y alike
      exact alike

theorem Shape.RelatedEntries.lower (congruence : Congruence rename R) (scope scope' : ScopeId)
    {es fs : List (String × Shape)} : Shape.RelatedEntries (Termwise R) es fs →
    List.Forall₂ (fun x y => x.1 = y.1 ∧ Termwise R x.2 y.2)
      (Shape.lowerEntries scope es) (Shape.lowerEntries scope' fs)
  | .nil => .nil
  | .cons alike rest =>
      .cons ⟨rfl, alike.lower congruence scope scope'⟩ (rest.lower congruence scope scope')

theorem Shape.RelatedItems.lower (congruence : Congruence rename R) (scope scope' : ScopeId)
    {as bs : List Shape} : Shape.RelatedItems (Termwise R) as bs →
    List.Forall₂ (Termwise R) (Shape.lowerItems scope as) (Shape.lowerItems scope' bs)
  | .nil => .nil
  | .cons alike rest =>
      .cons (alike.lower congruence scope scope') (rest.lower congruence scope scope')

end

end GraphQuery
