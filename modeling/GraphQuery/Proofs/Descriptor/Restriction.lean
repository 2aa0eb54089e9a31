import GraphQuery.Descriptor.Restriction
import GraphQuery.Proofs.Descriptor.Acceptance
import GraphQuery.Proofs.Descriptor.Union
import Mathlib.Data.List.Nodup

/-!
# What parsing keeps

A value that parses comes out restricted to what its shape declares. What is restricted has the
shape itself, and is the value it was made of but for keys of its objects.
-/

namespace GraphQuery.Descriptor

open Outcome

/-! ## Parsing restricts -/

/-- A traversal gives one result for each element, that of the step at its position. -/
theorem traverseFrom_eq_ok {α β ε : Type} {f : Nat → α → Except ε β} {i : Nat} {as : List α}
    {bs : List β} (done : traverseFrom f i as = .ok bs) :
    bs.length = as.length ∧
      ∀ (k : Nat) a b, as[k]? = some a → bs[k]? = some b → f (i + k) a = .ok b := by
  induction as generalizing i bs with
  | nil =>
      cases done
      exact ⟨rfl, by simp⟩
  | cons a rest ih =>
      rw [traverseFrom_cons] at done
      obtain ⟨b, first, behind⟩ := bind_eq_ok.mp done
      obtain ⟨bs', others, rfl⟩ := map_eq_ok.mp behind
      obtain ⟨length, each⟩ := ih others
      refine ⟨by simp [length], ?_⟩
      intro k c d atInput atOutput
      cases k with
      | zero =>
          cases atInput
          cases atOutput
          exact first
      | succ k =>
          have step := each k c d atInput atOutput
          rwa [Nat.add_right_comm] at step

/-- A position of one list is one of any other list of the same length. -/
theorem getElem?_of_length_eq {α β : Type} {as : List α} {bs : List β} {i : Nat} {b : β}
    (lengths : bs.length = as.length) (found : bs[i]? = some b) : ∃ a, as[i]? = some a := by
  obtain ⟨inside, _⟩ := List.getElem?_eq_some_iff.mp found
  exact ⟨_, List.getElem?_eq_getElem (lengths ▸ inside)⟩

/-- The entries of an object that are kept under the fields of its shape. -/
structure RestrictedFields (fields : List (String × Descriptor))
    (entries kept : List (String × Json)) : Prop where
  names : Fields.names kept = (Fields.names fields).filter (Fields.contains entries)
  missing : ∀ name t, fields.lookup name = some t → entries.lookup name = none →
    t.acceptsAbsent = true
  present : ∀ name t v w, fields.lookup name = some t → entries.lookup name = some v →
    kept.lookup name = some w → Restricted t v w

section RestrictedFields

variable {fields : List (String × Descriptor)} {entries kept : List (String × Json)} {key : String}
  {u : Descriptor}

/-- A field that is not there is passed over. -/
theorem RestrictedFields.skip (others : RestrictedFields fields entries kept)
    (absent : entries.lookup key = none) (accepts : u.acceptsAbsent = true) :
    RestrictedFields ((key, u) :: fields) entries kept where
  names := by
    rw [others.names, Fields.names_cons, List.filter_cons, Fields.contains_of_lookup_none absent]
    rfl
  missing name t declared unset := by
    rcases Fields.lookup_cons_eq_some.mp declared with ⟨rfl, rfl⟩ | ⟨_, declared⟩
    · exact accepts
    · exact others.missing name t declared unset
  present name t v w declared given result := by
    rcases Fields.lookup_cons_eq_some.mp declared with ⟨rfl, _⟩ | ⟨_, declared⟩
    · rw [absent] at given
      cases given
    · exact others.present name t v w declared given result

/-- A field that is there comes first, by the first field of its name. -/
theorem RestrictedFields.keep (others : RestrictedFields fields entries kept) {x y : Json}
    (given : entries.lookup key = some x) (restricted : Restricted u x y) :
    RestrictedFields ((key, u) :: fields) entries ((key, y) :: kept) where
  names := by
    rw [Fields.names_cons, others.names, Fields.names_cons, List.filter_cons,
      Fields.contains_of_lookup given]
    rfl
  missing name t declared unset := by
    rcases Fields.lookup_cons_eq_some.mp declared with ⟨rfl, _⟩ | ⟨_, declared⟩
    · rw [given] at unset
      cases unset
    · exact others.missing name t declared unset
  present name t v w declared here result := by
    rcases Fields.lookup_cons_eq_some.mp declared with ⟨rfl, rfl⟩ | ⟨different, declared⟩
    · rw [List.lookup_cons_self] at result
      rw [given] at here
      cases result
      cases here
      exact restricted
    · rw [Fields.lookup_cons_of_ne kept different] at result
      exact others.present name t v w declared here result

end RestrictedFields

mutual

/-- What parses is restricted as its shape declares. -/
theorem restricted_of_parse (t : Descriptor) {v w : Json} (parsed : t.parse v = .ok w) :
    Restricted t v w := by
  cases t with
  | option inner =>
      rw [parse] at parsed
      exact .option (restricted_of_parse inner parsed)
  | union alts =>
      rw [parse] at parsed
      split at parsed
      · next found =>
          cases parsed
          obtain ⟨t, member, restricted⟩ := restricted_of_parseFirst alts found
          exact .union member restricted
      · cases parsed
  | object fields =>
      cases v with
      | object entries =>
          rw [parse_object] at parsed
          obtain ⟨kept, done, rfl⟩ := map_eq_ok.mp parsed
          have restricted := restricted_of_parseFields fields done
          exact .object restricted.names restricted.missing restricted.present
      | _ => simp [parse, acceptsScalar] at parsed
  | list item =>
      cases v with
      | array xs =>
          rw [parse_list] at parsed
          obtain ⟨ys, done, rfl⟩ := map_eq_ok.mp parsed
          obtain ⟨length, each⟩ := traverseFrom_eq_ok done
          refine .list length ?_
          intro i x y atInput atOutput
          exact restricted_of_parse item (mapError_eq_ok.mp (each i x y atInput atOutput))
      | _ => simp [parse, acceptsScalar] at parsed
  | tuple items =>
      cases v with
      | array xs =>
          by_cases lengths : items.length = xs.length
          · rw [parse_tuple lengths] at parsed
            obtain ⟨ys, done, rfl⟩ := map_eq_ok.mp parsed
            obtain ⟨length, each⟩ := restricted_of_parseItems items 0 lengths done
            exact .tuple lengths length each
          · rw [parse_tuple_of_ne lengths] at parsed
            cases parsed
      | _ => simp [parse, acceptsScalar] at parsed
  | _ =>
      -- The kinds without parts: the value is checked and stays as it is.
      simp only [parse] at parsed
      split at parsed
      · next accepted =>
          cases parsed
          exact .scalar accepted
      · cases parsed
termination_by structural t

theorem restricted_of_parseFirst (alts : List Descriptor) {v w : Json}
    (found : parseFirst alts v = some w) : ∃ t ∈ alts, Restricted t v w := by
  cases alts with
  | nil => cases found
  | cons t rest =>
      rw [parseFirst] at found
      split at found
      · next first =>
          cases found
          exact ⟨t, List.mem_cons_self, restricted_of_parse t first⟩
      · obtain ⟨u, member, restricted⟩ := restricted_of_parseFirst rest found
        exact ⟨u, List.mem_cons_of_mem t member, restricted⟩
termination_by structural alts

theorem restricted_of_parseFields (fields : List (String × Descriptor))
    {entries kept : List (String × Json)} (parsed : parseFields fields entries = .ok kept) :
    RestrictedFields fields entries kept := by
  cases fields with
  | nil =>
      cases parsed
      exact ⟨rfl, by simp, by simp⟩
  | cons field rest =>
      obtain ⟨key, u⟩ := field
      rw [parseFields_cons] at parsed
      obtain ⟨slot, taken, behind⟩ := bind_eq_ok.mp parsed
      obtain ⟨others, done, rfl⟩ := map_eq_ok.mp behind
      have first := mapError_eq_ok.mp taken
      cases there : entries.lookup key with
      | none =>
          rw [there, parseSlot] at first
          split at first
          · next accepts =>
              cases first
              exact (restricted_of_parseFields rest done).skip there accepts
          · cases first
      | some x =>
          rw [there, parseSlot] at first
          obtain ⟨y, inside, rfl⟩ := map_eq_ok.mp first
          exact (restricted_of_parseFields rest done).keep there (restricted_of_parse u inside)
termination_by structural fields

theorem restricted_of_parseItems (items : List Descriptor) (position : Nat) {xs ys : List Json}
    (lengths : items.length = xs.length) (parsed : parseItems position items xs = .ok ys) :
    ys.length = xs.length ∧
      ∀ (i : Nat) t x y, items[i]? = some t → xs[i]? = some x → ys[i]? = some y →
        Restricted t x y := by
  cases items with
  | nil =>
      cases xs with
      | nil =>
          cases parsed
          exact ⟨rfl, by simp⟩
      | cons x xs => cases lengths
  | cons t rest =>
      cases xs with
      | nil => cases lengths
      | cons x xs =>
          rw [parseItems_cons] at parsed
          obtain ⟨y, taken, behind⟩ := bind_eq_ok.mp parsed
          obtain ⟨others, done, rfl⟩ := map_eq_ok.mp behind
          obtain ⟨length, each⟩ := restricted_of_parseItems rest (position + 1)
            (Nat.succ.inj lengths) done
          refine ⟨by simp [length], ?_⟩
          intro i u a b atShape atInput atOutput
          cases i with
          | zero =>
              cases atShape
              cases atInput
              cases atOutput
              exact restricted_of_parse t (mapError_eq_ok.mp taken)
          | succ i => exact each i u a b atShape atInput atOutput
termination_by structural items

end

/-! ## What comes out has the shape -/

theorem check_of_acceptsScalar {t : Descriptor} {v : Json} (accepted : t.acceptsScalar v = true) :
    t.check (some v) = true := by
  cases t with
  | absent | never | option | object | list | tuple | union => simp [acceptsScalar] at accepted
  | _ => simpa [check] using accepted

section Kept

variable {fields : List (String × Descriptor)} {entries kept : List (String × Json)} {name : String}

/-- A key that a restricted object has is declared and present in the whole object. -/
theorem mem_names_kept
    (names : Fields.names kept = (Fields.names fields).filter (Fields.contains entries)) :
    name ∈ Fields.names kept ↔ name ∈ Fields.names fields ∧ name ∈ Fields.names entries := by
  rw [names, List.mem_filter, Fields.contains_iff_mem]

theorem lookup_of_kept
    (names : Fields.names kept = (Fields.names fields).filter (Fields.contains entries)) {w : Json}
    (result : kept.lookup name = some w) :
    (∃ t, fields.lookup name = some t) ∧ ∃ v, entries.lookup name = some v := by
  have there := (mem_names_kept names).mp (List.mem_map_of_mem (Fields.mem_of_lookup result))
  exact ⟨Fields.lookup_of_mem_names there.1, Fields.lookup_of_mem_names there.2⟩

/-- A declared key that was not kept was not there. -/
theorem lookup_of_not_kept
    (names : Fields.names kept = (Fields.names fields).filter (Fields.contains entries))
    (declared : name ∈ Fields.names fields) (result : kept.lookup name = none) :
    entries.lookup name = none := by
  rw [Fields.lookup_eq_none] at result ⊢
  intro given
  exact result ((mem_names_kept names).mpr ⟨declared, given⟩)

end Kept

theorem Restricted.check {t : Descriptor} {v w : Json} (restricted : Restricted t v w)
    (distinct : t.Distinct) : t.check (some w) = true := by
  induction restricted with
  | scalar accepted => exact check_of_acceptsScalar accepted
  | option _ ih =>
      rw [Descriptor.check]
      exact ih (distinct.of_occurs (.option .self))
  | union member _ ih =>
      rw [Descriptor.check]
      exact checkAny_iff.mpr ⟨_, member, ih (distinct.of_occurs (.alternative member .self))⟩
  | @object fields entries kept names missing _ ih =>
      rw [Descriptor.check, checkFields_iff]
      intro name t member
      have declared := (distinct fields .self).lookup member
      cases result : kept.lookup name with
      | none =>
          rw [check_none]
          exact missing name t declared
            (lookup_of_not_kept names (List.mem_map_of_mem member) result)
      | some w =>
          obtain ⟨_, v, given⟩ := lookup_of_kept names result
          exact ih name t v w declared given result (distinct.of_occurs (.field member .self))
  | @list item xs ys length _ ih =>
      rw [Descriptor.check, List.all_eq_true]
      intro y member
      obtain ⟨i, atOutput⟩ := List.mem_iff_getElem?.mp member
      obtain ⟨x, atInput⟩ := getElem?_of_length_eq length atOutput
      exact ih i x y atInput atOutput (distinct.of_occurs (.item .self))
  | @tuple items xs ys lengths length _ ih =>
      rw [Descriptor.check, checkItems_iff]
      refine ⟨lengths.trans length.symm, ?_⟩
      intro i t y atShape atOutput
      obtain ⟨x, atInput⟩ := getElem?_of_length_eq length atOutput
      exact ih i t x y atShape atInput atOutput
        (distinct.of_occurs (.position (List.mem_of_getElem? atShape) .self))

/-! ## What comes out is a part of what went in -/

theorem Restricted.restricts {t : Descriptor} {v w : Json} (restricted : Restricted t v w)
    (distinct : t.Distinct) : Json.Restricts w v := by
  induction restricted with
  | scalar _ => exact .same _
  | option _ ih => exact ih (distinct.of_occurs (.option .self))
  | union member _ ih => exact ih (distinct.of_occurs (.alternative member .self))
  | @object fields entries kept names missing _ ih =>
      refine .object ?_ ?_
      · have once : (Fields.names kept).Nodup := by
          rw [names]
          exact List.Nodup.filter _ (distinct fields .self)
        refine once.subperm ?_
        intro name member
        exact ((mem_names_kept names).mp member).2
      · intro name w v result given
        obtain ⟨⟨t, declared⟩, _⟩ := lookup_of_kept names result
        exact ih name t v w declared given result
          (distinct.of_occurs (.field (Fields.mem_of_lookup declared) .self))
  | @list item xs ys length _ ih =>
      refine .array (List.forall₂_iff_get.mpr ⟨length, ?_⟩)
      intro i atOutput atInput
      exact ih i _ _ (List.getElem?_eq_getElem atInput) (List.getElem?_eq_getElem atOutput)
        (distinct.of_occurs (.item .self))
  | @tuple items xs ys lengths length _ ih =>
      refine .array (List.forall₂_iff_get.mpr ⟨length, ?_⟩)
      intro i atOutput atInput
      have atShape : i < items.length := lengths ▸ atInput
      exact ih i _ _ _ (List.getElem?_eq_getElem atShape) (List.getElem?_eq_getElem atInput)
        (List.getElem?_eq_getElem atOutput)
        (distinct.of_occurs (.position (List.getElem_mem atShape) .self))

end GraphQuery.Descriptor
