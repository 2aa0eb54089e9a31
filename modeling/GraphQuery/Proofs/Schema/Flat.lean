import GraphQuery.Proofs.Schema.Resolve

/-!
# Flat unions stay flat

Unions are built again when absence is stripped, when a key is followed and when links are replaced. The
parts that are put together are flat in all three cases, so what comes out is flat too. The rows that
links lead to are taken as they were declared, and so are the unions inside them.
-/

namespace GraphQuery.Descriptor

/-- Building unions of flat descriptors is associative and idempotent, takes a single descriptor as it
is, and keeps the alternatives in the order of their first occurrences; what it builds is flat. Where all
unions in a descriptor are flat, they still are after absence is stripped and behind every key, and so
are those that are met when links are replaced. -/
theorem unionOf_normalizes {a b : List Descriptor} (flat : ∀ t ∈ a, t.Flat)
    (others : ∀ t ∈ b, t.Flat) :
    (unionOf a).Flat ∧
      unionOf (a ++ b) = unionOf [unionOf a, unionOf b] ∧
      (∀ t : Descriptor, t.Flat → unionOf [t] = t) ∧
      ((∀ t ∈ a, t.Distinct) → unionOf (a ++ a) = unionOf a) ∧
      (unionOf a).alternatives = firstOccurrences [] (a.flatMap alternatives) ∧
      ∀ t : Descriptor, t.FlatThroughout → ∀ (key : Key) (db : Database),
        t.present.FlatThroughout ∧ (t.get key).FlatThroughout ∧ (db.resolve t).FlatOutside := by
  refine ⟨(flat_unionOf flat).1, unionOf_append flat others, ?_, ?_, alternatives_unionOf flat, ?_⟩
  · intro t whole
    exact unionOf_singleton whole
  · intro distinct
    exact unionOf_append_self distinct
  · intro t whole key db
    exact ⟨hereditary_flatThroughout.present t whole, hereditary_flatThroughout.get t whole key,
      db.flatOutside_resolve t⟩

namespace Answer

/-- A size in either order of its fields, or none. -/
def given : List Descriptor :=
  [union [object [("width", number), ("unit", string)], null],
    object [("unit", string), ("width", number)]]

/-- A name for the size, or none. -/
def named : List Descriptor := [never, union [string, null]]

/-- Both together. -/
def whole : Descriptor :=
  union [object [("width", number), ("unit", string)], null, string]

theorem flatThroughout_whole : whole.FlatThroughout := by
  intro s part
  have all : whole.everywhere (fun s => decide s.Flat) = true := by decide
  exact of_decide_eq_true ((everywhere_iff whole).mp all s part)

end Answer

/-- The size is offered once, in front of null and the name. -/
theorem unionOf_normalizes_answer :
    (∀ t ∈ Answer.given, t.Flat) ∧ (∀ t ∈ Answer.named, t.Flat) ∧
      (∀ t ∈ Answer.given, t.Distinct) ∧ Answer.whole.FlatThroughout ∧
      unionOf (Answer.given ++ Answer.named) = Answer.whole ∧
      unionOf [unionOf Answer.given, unionOf Answer.named] = Answer.whole ∧
      unionOf (Answer.given ++ Answer.given) = unionOf Answer.given ∧
      (Answer.whole.get (.field "unit")).FlatThroughout := by
  have flat : ∀ t ∈ Answer.given, t.Flat := by decide
  have others : ∀ t ∈ Answer.named, t.Flat := by decide
  have distinct : ∀ t ∈ Answer.given, t.Distinct := by decide
  have made : unionOf (Answer.given ++ Answer.named) = Answer.whole := rfl
  obtain ⟨_, grouped, _, repeated, _, stays⟩ := unionOf_normalizes flat others
  obtain ⟨_, behind, _⟩ := stays Answer.whole Answer.flatThroughout_whole (.field "unit") .empty
  exact ⟨flat, others, distinct, Answer.flatThroughout_whole, made, grouped.symm.trans made,
    repeated distinct, behind⟩

end GraphQuery.Descriptor
