import GraphQuery.Proofs.Fields.Lookup
import GraphQuery.Query.DeepMerge
import Mathlib.Data.Fintype.EquivFin

/-!
# What is left of a document under another one

What stands under a key of a record after a document was merged into it is known from what stood
there and from what the document has there. So two documents, merged into each other key by key at
the top alone, do what they do one after the other exactly if the later one overrides the earlier one
wherever both name a key.
-/

namespace GraphQuery

namespace Document

open Json (Alike)

variable {base next : List (String × Json)} {name : String} {v : Json}

@[simp] theorem deepMerge_null (v : Json) : deepMerge .null v = v := by
  cases v <;> rfl

theorem deepMerge_of_not_object {v : Json} (plain : v.isObject = false) (y : Json) :
    deepMerge y v = v := by
  cases v with
  | object => cases plain
  | _ => cases y <;> rfl

theorem deepMerge_into_not_object {u : Json} (plain : u.isObject = false) (v : Json) :
    deepMerge u v = v := by
  cases u with
  | object => cases plain
  | _ => cases v <;> rfl

theorem lookup_deepExtend_of_none (missing : next.lookup name = none) :
    (deepExtend base next).lookup name = base.lookup name := by
  induction next generalizing base with
  | nil => rfl
  | cons entry rest ih =>
      obtain ⟨key, w⟩ := entry
      rw [Fields.lookup_eq_none, Fields.names_cons, List.mem_cons, not_or] at missing
      rw [deepExtend, ih (Fields.lookup_eq_none.mpr missing.2),
        Fields.lookup_insert_of_ne base _ missing.1]

theorem lookup_deepExtend_of_some (distinct : Fields.Distinct next)
    (found : next.lookup name = some v) :
    (deepExtend base next).lookup name =
      some (deepMerge ((base.lookup name).getD .null) v) := by
  induction next generalizing base with
  | nil => cases found
  | cons entry rest ih =>
      obtain ⟨key, w⟩ := entry
      obtain ⟨fresh, others⟩ := List.nodup_cons.mp distinct
      rw [deepExtend]
      rcases Fields.lookup_cons_eq_some.mp found with ⟨rfl, rfl⟩ | ⟨different, behind⟩
      · rw [lookup_deepExtend_of_none (Fields.lookup_eq_none.mpr fresh),
          Fields.lookup_insert_self]
      · rw [ih others behind, Fields.lookup_insert_of_ne base _ different]

/-- The fields that a merge finds in a value: none if it is no object. -/
def fieldsOf : Json → List (String × Json)
  | .object fields => fields
  | _ => []

/-- What stands under the keys of a record once a document was merged into it. -/
theorem deepMerge_object (distinct : Fields.Distinct next) (y : Json) :
    ∃ merged, deepMerge y (.object next) = .object merged ∧
      (∀ name, next.lookup name = none → merged.lookup name = (fieldsOf y).lookup name) ∧
      ∀ name v, next.lookup name = some v →
        merged.lookup name = some (deepMerge (((fieldsOf y).lookup name).getD .null) v) := by
  cases y with
  | object base =>
      exact ⟨deepExtend base next, rfl, fun _ => lookup_deepExtend_of_none,
        fun _ _ => lookup_deepExtend_of_some distinct⟩
  | _ =>
      refine ⟨next, rfl, ?_, ?_⟩
      · intro name missing
        exact missing
      · intro name v found
        simp only [fieldsOf, List.lookup_nil, Option.getD_none, deepMerge_null]
        exact found

/-! ## Two documents as one -/

/-- The entries of two documents in one: those of the later one, and those of the earlier one under
the keys that the later one does not name. -/
structure Joined (earlier later joined : List (String × Json)) : Prop where
  distinct_earlier : Fields.Distinct earlier
  distinct_later : Fields.Distinct later
  distinct : Fields.Distinct joined
  lookup_of_none : ∀ name, later.lookup name = none → joined.lookup name = earlier.lookup name
  lookup_of_some : ∀ name v, later.lookup name = some v → joined.lookup name = some v

theorem Joined.extend {earlier later : List (String × Json)} (distinct : Fields.Distinct earlier)
    (distinct' : Fields.Distinct later) : Joined earlier later (Fields.extend earlier later) where
  distinct_earlier := distinct
  distinct_later := distinct'
  distinct := distinct.extend later
  lookup_of_none _ := Fields.lookup_extend_of_none
  lookup_of_some _ _ := Fields.lookup_extend_of_some distinct'

/-- A document that names all keys of the earlier one takes its place. -/
theorem Joined.of_subset {earlier later : List (String × Json)} (distinct : Fields.Distinct earlier)
    (distinct' : Fields.Distinct later) (names : Fields.names earlier ⊆ Fields.names later) :
    Joined earlier later later where
  distinct_earlier := distinct
  distinct_later := distinct'
  distinct := distinct'
  lookup_of_none name missing := by
    rw [Fields.lookup_eq_none] at missing
    have absent : name ∉ Fields.names earlier := fun there => missing (names there)
    rw [Fields.lookup_eq_none.mpr missing, Fields.lookup_eq_none.mpr absent]
  lookup_of_some _ _ found := found

/-- `Unseen u v`: whatever stood there before, what is left once `u` was merged into it cannot be
told from it once `v` is merged too. -/
def Unseen (u v : Json) : Prop := ∀ y, Alike (deepMerge y v) (deepMerge (deepMerge y u) v)

variable {earlier later joined : List (String × Json)}

/-- Both documents can be merged as one if what the earlier one has under their common keys is not
seen behind the later one. -/
theorem Joined.alike (join : Joined earlier later joined)
    (unseen : ∀ name u v, earlier.lookup name = some u → later.lookup name = some v → Unseen u v)
    (y : Json) :
    Alike (deepMerge y (.object joined)) (deepMerge (deepMerge y (.object earlier)) (.object later)) := by
  obtain ⟨once, atOnce, onceOld, onceNew⟩ := deepMerge_object join.distinct y
  obtain ⟨first, atFirst, firstOld, firstNew⟩ := deepMerge_object join.distinct_earlier y
  obtain ⟨second, atSecond, secondOld, secondNew⟩ :=
    deepMerge_object join.distinct_later (.object first)
  rw [atOnce, atFirst, atSecond]
  refine .object fun name => ?_
  cases new : later.lookup name with
  | none =>
      -- Both are left with what the earlier document makes of the key.
      have rest := join.lookup_of_none name new
      rw [secondOld name new, fieldsOf]
      cases old : earlier.lookup name with
      | none =>
          rw [onceOld name (rest.trans old), firstOld name old]
          cases (fieldsOf y).lookup name with
          | none => exact .none
          | some w => exact .some (.same w)
      | some u =>
          rw [onceNew name u (rest.trans old), firstNew name u old]
          exact .some (.same _)
  | some v =>
      -- Both merge `v`, the one into what stood there and the other into what `earlier` left there.
      rw [onceNew name v (join.lookup_of_some name v new), secondNew name v new, fieldsOf]
      cases old : earlier.lookup name with
      | none =>
          rw [firstOld name old]
          exact .some (.same _)
      | some u =>
          rw [firstNew name u old, Option.getD_some]
          exact .some (unseen name u v old new _)

/-- Conversely, a record whose only key is a common one shows what is seen there. -/
theorem Joined.unseen (join : Joined earlier later joined)
    (alike : ∀ base, Alike (deepMerge (.object base) (.object joined))
      (deepMerge (deepMerge (.object base) (.object earlier)) (.object later)))
    {name : String} {u v : Json} (old : earlier.lookup name = some u)
    (new : later.lookup name = some v) : Unseen u v := by
  intro y
  have whole := (alike [(name, y)]).lookup name
  rw [lookup_deepExtend_of_some join.distinct (join.lookup_of_some name v new),
    lookup_deepExtend_of_some join.distinct_later new,
    lookup_deepExtend_of_some join.distinct_earlier old, List.lookup_cons_self] at whole
  cases whole with
  | some alike => exact alike

/-! ## Overriding is what is not seen -/

theorem Overrides.unseen {v u : Json} (overrides : Overrides v u) (distinct : v.distinct = true)
    (distinct' : u.distinct = true) : Unseen u v := by
  induction overrides with
  | replaced u plain =>
      intro y
      rw [deepMerge_of_not_object plain, deepMerge_of_not_object plain]
      exact .same _
  | object names _ ih =>
      obtain ⟨once, each⟩ := Json.distinct_object.mp distinct
      obtain ⟨once', each'⟩ := Json.distinct_object.mp distinct'
      refine (Joined.of_subset once' once names).alike ?_
      intro name u v old new
      exact ih name u v old new (each name v (Fields.mem_of_lookup new))
        (each' name u (Fields.mem_of_lookup old))

/-- An object lets through what it does not name, but not behind a value that is none. -/
theorem not_unseen_of_not_object {u : Json} (plain : u.isObject = false) :
    ¬ Unseen u (.object later) := by
  intro unseen
  -- A key that is not named is lost with the object in which it stood.
  obtain ⟨fresh, absent⟩ := Infinite.exists_notMem_finset (Fields.names later).toFinset
  rw [List.mem_toFinset, ← Fields.lookup_eq_none] at absent
  have whole := unseen (.object [(fresh, .null)])
  rw [deepMerge_of_not_object plain, deepMerge_into_not_object plain] at whole
  have there := whole.lookup fresh
  rw [lookup_deepExtend_of_none absent, List.lookup_cons_self, absent] at there
  cases there

/-- What is not seen is overridden. The induction is on the earlier value: a common key is shown by a
record that has no other, and a key that the later object does not name by a record without any. -/
theorem overrides_of_unseen (u : Json) {v : Json} (distinct : v.distinct = true)
    (distinct' : u.distinct = true) (unseen : Unseen u v) : Overrides v u := by
  cases v with
  | object later =>
      obtain ⟨once, each⟩ := Json.distinct_object.mp distinct
      cases u with
      | object earlier =>
          obtain ⟨once', each'⟩ := Json.distinct_object.mp distinct'
          have names : Fields.names earlier ⊆ Fields.names later := by
            intro name there
            obtain ⟨u, old⟩ := Fields.lookup_of_mem_names there
            by_contra absent
            -- The earlier value would be seen under a key that the later one leaves out.
            have new := Fields.lookup_eq_none.mpr absent
            have whole := (unseen .null).lookup name
            rw [lookup_deepExtend_of_none new, new, old] at whole
            cases whole
          refine .object names ?_
          intro name u v old new
          have join := Joined.of_subset once' once names
          have member := Fields.mem_of_lookup old
          exact overrides_of_unseen u (each name v (Fields.mem_of_lookup new))
            (each' name u member) (join.unseen (fun base => unseen (.object base)) old new)
      | _ => exact absurd unseen (not_unseen_of_not_object rfl)
  | _ => exact .replaced u rfl
termination_by sizeOf u
decreasing_by
  have smaller := List.sizeOf_lt_of_mem member
  subst_vars
  simp only [Prod.mk.sizeOf_spec, Json.object.sizeOf_spec] at smaller ⊢
  omega

/-- Two documents that are merged at the top alone do what they do one after the other exactly if the
later one overrides the earlier one under every key of both. -/
theorem deepMerge_merge_iff (distinct : Json.distinct (.object earlier) = true)
    (distinct' : Json.distinct (.object later) = true) :
    (∀ base, Alike (deepMerge (.object base) (merge (.object earlier) (.object later)))
      (deepMerge (deepMerge (.object base) (.object earlier)) (.object later))) ↔
      ∀ name u v, earlier.lookup name = some u → later.lookup name = some v → Overrides v u := by
  obtain ⟨once, each⟩ := Json.distinct_object.mp distinct
  obtain ⟨once', each'⟩ := Json.distinct_object.mp distinct'
  have join := Joined.extend once once'
  refine ⟨?_, ?_⟩
  · intro alike name u v old new
    exact overrides_of_unseen u (each' name v (Fields.mem_of_lookup new))
      (each name u (Fields.mem_of_lookup old)) (join.unseen alike old new)
  · intro overrides base
    refine join.alike ?_ (.object base)
    intro name u v old new
    exact (overrides name u v old new).unseen (each' name v (Fields.mem_of_lookup new))
      (each name u (Fields.mem_of_lookup old))

end Document

end GraphQuery
