import GraphQuery.Descriptor.Declared
import GraphQuery.Proofs.Descriptor.Acceptance
import GraphQuery.Proofs.Descriptor.Hereditary
import GraphQuery.Proofs.Schema.FieldPath
import Mathlib.Data.List.Induction

/-!
# What a field path finds

Looking up a name finds the fields of that name in the objects that are met, wraps them as they were
wrapped, and leaves lists where it met lists. So at the end of a path that is not declared nothing
stands but absence and, where a list was met in front of a name, lists of it.
-/

namespace GraphQuery.Descriptor

variable {s t u : Descriptor} {name : String} {names front rest : List String}

/-! ## Meeting -/

theorem Meets.outer (inside : Meets s t names) (around : Reachable t u) : Meets s u names := by
  cases inside with
  | here part => exact .here (part.trans around)
  | field object declared further => exact .field (object.trans around) declared further

/-- In an object a name is looked up among its own fields. -/
theorem Meets.of_object {fields : List (String × Descriptor)}
    (inside : Meets s (.object fields) (name :: rest)) :
    ∃ u, fields.lookup name = some u ∧ Meets s u rest := by
  cases inside with
  | field object declared further =>
      cases object
      exact ⟨_, declared, further⟩

theorem Meets.inner (inside : Meets s t names) (part : Reachable u s) : Meets u t names := by
  induction inside with
  | here around => exact .here (part.trans around)
  | field object declared _ ih => exact .field object declared ih

/-- A field of an object that is met is met behind its name. -/
theorem Meets.snoc {fields : List (String × Descriptor)} (object : Meets (.object fields) t front)
    (declared : fields.lookup name = some u) : Meets u t (front ++ [name]) := by
  induction object with
  | here part => exact .field part declared (.here .self)
  | field part found _ ih => exact .field part found ih

theorem Meets.inFront (inside : Meets s t front) (name : String) : InFront s t (front ++ [name]) :=
  ⟨front, [name], rfl, List.cons_ne_nil name [], inside⟩

theorem InFront.append (inFront : InFront s t front) (rest : List String) :
    InFront s t (front ++ rest) := by
  obtain ⟨before, behind, rfl, more, meets⟩ := inFront
  exact ⟨before, behind ++ rest, List.append_assoc .., by simp [more], meets⟩

/-! ## What stands behind a name -/

/-- What projecting puts around fields, and where there are none. -/
def isFiller : Descriptor → Bool
  | absent => true
  | never => true
  | option _ => true
  | union (_ :: _ :: _) => true
  | _ => false

/-- What may stand behind a name: a part of a field of that name, what projecting puts around fields, or
a list in the place of one that stands in front of the name. -/
inductive Beneath (s t : Descriptor) (name : String) : Prop
  | field {fields : List (String × Descriptor)} {u : Descriptor} : Reachable (.object fields) t →
      fields.lookup name = some u → Reachable s u → Beneath s t name
  | filler : s.isFiller = true → Beneath s t name
  | list {item item' : Descriptor} : s = .list item → Reachable (.list item') t → Beneath s t name

theorem Beneath.outer (beneath : Beneath s t name) (around : Reachable t u) : Beneath s u name := by
  cases beneath with
  | field object declared part => exact .field (object.trans around) declared part
  | filler filler => exact .filler filler
  | list same list => exact .list same (list.trans around)

theorem beneath_of_reachable_get (t : Descriptor) {s : Descriptor}
    (inside : Reachable s (t.get (.field name))) : Beneath s t name := by
  cases t with
  | object fields =>
      rw [get] at inside
      cases declared : fields.lookup name with
      | none =>
          rw [declared] at inside
          cases inside
          exact .filler rfl
      | some u =>
          rw [declared] at inside
          exact .field .self declared inside
  | option inner =>
      rw [get, optional] at inside
      split at inside
      · exact (beneath_of_reachable_get inner inside).outer (.option .self)
      · cases inside with
        | self => exact .filler rfl
        | option inside => exact (beneath_of_reachable_get inner inside).outer (.option .self)
  | list item =>
      rw [get] at inside
      cases inside with
      | self => exact .list rfl .self
      | item inside => exact (beneath_of_reachable_get item inside).outer (.item .self)
  | union alts =>
      rw [get, getEach_eq_map] at inside
      rcases reachable_unionOf inside with rfl | ⟨_, _, _, rfl⟩ | ⟨_, made, inside⟩
      · exact .filler rfl
      · exact .filler rfl
      · obtain ⟨t, member, rfl⟩ := List.mem_map.mp made
        exact (beneath_of_reachable_get t inside).outer (.alternative member .self)
  | _ =>
      cases inside
      exact .filler rfl
termination_by sizeOf t

/-- What is met at the end of names was met behind them, unless it was put there: around fields, or as
a list in the place of a list in front. -/
theorem meets_of_reachable_atParts (inside : Reachable s (t.atParts names)) :
    Meets s t names ∨ s.isFiller = true ∨
      ∃ item item', s = .list item ∧ InFront (.list item') t names := by
  induction names using List.reverseRecOn generalizing s with
  | nil => exact .inl (.here inside)
  | append_singleton front name ih =>
      rw [atParts_append] at inside
      cases beneath_of_reachable_get _ inside with
      | field object declared part =>
          -- The object was met as well, since nothing puts objects there.
          rcases ih object with met | filler | ⟨_, _, same, _⟩
          · exact .inl ((met.snoc declared).inner part)
          · cases filler
          · cases same
      | filler filler => exact .inr (.inl filler)
      | @list item _ same list =>
          rcases ih list with met | filler | ⟨_, item', _, inFront⟩
          · exact .inr (.inr ⟨item, _, same, met.inFront name⟩)
          · cases filler
          · exact .inr (.inr ⟨item, item', same, inFront.append [name]⟩)

/-- Without lists and without unions of nothing, a name that no object declares has nothing behind
it. -/
theorem get_field_eq_absent (t : Descriptor) (noList : ∀ item, ¬ Reachable (.list item) t)
    (noEmpty : ¬ Reachable (.union []) t)
    (undeclared : ∀ fields, Reachable (.object fields) t → fields.lookup name = none) :
    t.get (.field name) = absent := by
  cases t with
  | object fields =>
      rw [get, undeclared fields .self]
      rfl
  | option inner =>
      rw [get, get_field_eq_absent inner (fun item list => noList item (.option list))
        (fun empty => noEmpty (.option empty)) (fun fields object => undeclared fields (.option object))]
      rfl
  | list item => exact absurd .self (noList item)
  | union alts =>
      have each : ∀ t ∈ alts, t.get (.field name) = absent := by
        intro t member
        exact get_field_eq_absent t (fun item list => noList item (.alternative member list))
          (fun empty => noEmpty (.alternative member empty))
          (fun fields object => undeclared fields (.alternative member object))
      rw [get, getEach_eq_map, List.map_congr_left each, List.map_const']
      cases alts with
      | nil => exact absurd .self noEmpty
      | cons first more => exact unionOf_replicate_absent more.length
  | _ => rfl
termination_by sizeOf t

/-- Nothing stands at the end of a path that is not declared, unless a list or a union of nothing is met
in front of one of its names. -/
theorem atParts_eq_absent (further : names ≠ []) (undeclared : ¬ t.Declares names)
    (noList : ∀ item, ¬ InFront (.list item) t names) (noEmpty : ¬ InFront (.union []) t names) :
    t.atParts names = absent := by
  obtain ⟨front, name, rfl⟩ : ∃ front name, names = front ++ [name] :=
    ⟨_, _, (List.dropLast_append_getLast further).symm⟩
  rw [atParts_append]
  refine get_field_eq_absent _ ?_ ?_ ?_
  · intro item list
    rcases meets_of_reachable_atParts list with met | filler | ⟨_, item', _, inFront⟩
    · exact noList item (met.inFront name)
    · cases filler
    · exact noList item' (inFront.append [name])
  · intro empty
    rcases meets_of_reachable_atParts empty with met | filler | ⟨_, _, same, _⟩
    · exact noEmpty (met.inFront name)
    · cases filler
    · cases same
  · intro fields object
    rcases meets_of_reachable_atParts object with met | filler | ⟨_, _, same, _⟩
    · cases declared : fields.lookup name with
      | none => rfl
      | some u => exact absurd ⟨u, met.snoc declared⟩ undeclared
    · cases filler
    · cases same

/-! ## Values that fit where nothing is declared -/

/-- Only arrays of nothing have a shape in which nothing but lists and absence is met. -/
theorem isHollow_of_check (t : Descriptor) (vacant : ∀ s, Reachable s t →
      s.isFiller = true ∨ ∃ item, s = .list item) {v : Json} (accepted : t.check (some v) = true) :
    v.isHollow = true := by
  cases t with
  | option inner =>
      exact isHollow_of_check inner (fun s part => vacant s (.option part)) accepted
  | list item =>
      cases v with
      | array xs =>
          rw [check, List.all_eq_true] at accepted
          rw [Json.isHollow, Json.areHollow_iff]
          intro x member
          exact isHollow_of_check item (fun s part => vacant s (.item part)) (accepted x member)
      | _ => cases accepted
  | union alts =>
      rw [check, checkAny_iff] at accepted
      obtain ⟨t, member, accepted⟩ := accepted
      exact isHollow_of_check t (fun s part => vacant s (.alternative member part)) accepted
  | absent => cases accepted
  | never => cases v <;> cases accepted
  | _ => rcases vacant _ .self with filler | ⟨_, same⟩ <;> contradiction
termination_by sizeOf t

/-- At the end of a path that is not declared nothing fits but arrays of nothing. -/
theorem isHollow_of_check_atParts (undeclared : ¬ t.Declares names) {v : Json}
    (accepted : (t.atParts names).check (some v) = true) : v.isHollow = true := by
  refine isHollow_of_check _ ?_ accepted
  intro s part
  rcases meets_of_reachable_atParts part with met | filler | ⟨item, _, rfl, _⟩
  · exact absurd ⟨s, met⟩ undeclared
  · exact .inl filler
  · exact .inr ⟨item, rfl⟩

/-! ## Lists stay lists -/

theorem Distinct.get {t : Descriptor} (distinct : t.Distinct) (key : Key) : (t.get key).Distinct :=
  hereditary_distinct.get t distinct key

theorem Distinct.atParts {t : Descriptor} (distinct : t.Distinct) (names : List String) :
    (t.atParts names).Distinct := by
  induction names generalizing t with
  | nil => exact distinct
  | cons name rest ih => exact ih (distinct.get (.field name))

/-- Some list is met behind names. -/
def MeetsList (t : Descriptor) (names : List String) : Prop := ∃ item, Meets (.list item) t names

theorem MeetsList.outer (inside : MeetsList t names) (around : Reachable t u) :
    MeetsList u names :=
  inside.imp fun _ met => met.outer around

/-- Behind the same names a list is met in equal descriptors. -/
theorem MeetsList.of_same (inside : MeetsList t names) (equal : u.same t = true)
    (distinct : u.Distinct) : MeetsList u names := by
  obtain ⟨item, met⟩ := inside
  induction met generalizing u with
  | here part =>
      obtain ⟨r, part, same⟩ := reachable_of_same part equal
      cases r with
      | list item => exact ⟨item, .here part⟩
      | _ => simp [Descriptor.same] at same
  | field part declared _ ih =>
      obtain ⟨r, part, equal⟩ := reachable_of_same part equal
      cases r with
      | object fields =>
          have own := distinct.of_occurs part.occurs
          obtain ⟨v, found, same⟩ := lookup_of_same (own fields .self) equal declared
          have inside := ih same (own.of_occurs (.field (Fields.mem_of_lookup found) .self))
          exact inside.imp fun _ met => .field part found met
      | _ => simp [Descriptor.same] at equal

/-- A union keeps what is met in its parts. -/
theorem MeetsList.unionOf {ts : List Descriptor} (inside : MeetsList t names) (member : t ∈ ts)
    (distinct : ∀ t ∈ ts, t.Distinct) : MeetsList (unionOf ts) names := by
  obtain ⟨alts, made, taken, kept⟩ := unionOf_eq_collapse ts
  -- What is met is met in something that the part adds.
  have added : ∃ a ∈ t.alternatives, MeetsList a names := by
    obtain ⟨item, met⟩ := inside
    cases t with
    | union alts =>
        cases met with
        | here part =>
            cases part with
            | alternative member part => exact ⟨_, member, item, .here part⟩
        | field part declared further =>
            cases part with
            | alternative member part => exact ⟨_, member, item, .field part declared further⟩
    | never =>
        cases met with
        | here part => cases part
        | field part _ _ => cases part
    | _ => exact ⟨_, List.mem_cons_self, item, met⟩
  obtain ⟨a, part, inside⟩ := added
  obtain ⟨r, there, equal⟩ := kept t member a part
  have inside : MeetsList r names := by
    rcases equal with rfl | equal
    · exact inside
    · obtain ⟨t', member', part'⟩ := taken r there
      exact inside.of_same equal
        ((distinct t' member').of_occurs (reachable_of_mem_alternatives part').occurs)
  rw [made]
  exact inside.outer (reachable_of_mem_collapse there)

/-- What is met behind a name of a part is met behind that name of the whole. -/
theorem MeetsList.get_of_reachable (part : Reachable s t) (distinct : t.Distinct)
    (inside : MeetsList (s.get (.field name)) names) : MeetsList (t.get (.field name)) names := by
  induction part with
  | self => exact inside
  | option _ ih =>
      have inside := ih (distinct.of_occurs (.option .self))
      rw [get, optional]
      split
      · exact inside
      · exact inside.outer (.option .self)
  | item _ ih => exact (ih (distinct.of_occurs (.item .self))).outer (.item .self)
  | @alternative alts t member _ ih =>
      have inside := ih (distinct.of_occurs (.alternative member .self))
      rw [get, getEach_eq_map]
      refine inside.unionOf (List.mem_map_of_mem member) ?_
      intro u made
      obtain ⟨t, member, rfl⟩ := List.mem_map.mp made
      exact Distinct.get (distinct.of_occurs (.alternative member .self)) _

/-- A list in front of a name is met at the end of the path. -/
theorem meetsList_atParts (distinct : t.Distinct) (front : List String)
    (inside : MeetsList t front) (rest : List String) :
    ∃ item, Reachable (.list item) (t.atParts (front ++ rest)) := by
  induction front generalizing t with
  | cons name front ih =>
      obtain ⟨item, met⟩ := inside
      cases met with
      | field object declared further =>
          refine ih (Distinct.get distinct (.field name)) (.get_of_reachable object distinct ?_)
          rw [get, declared]
          exact ⟨item, further⟩
  | nil =>
      induction rest generalizing t with
      | nil =>
          obtain ⟨item, met⟩ := inside
          cases met with
          | here list => exact ⟨item, list⟩
      | cons name rest ih =>
          obtain ⟨item, met⟩ := inside
          cases met with
          | here list =>
              refine ih (Distinct.get distinct (.field name)) (.get_of_reachable list distinct ?_)
              exact ⟨_, .here .self⟩

end GraphQuery.Descriptor
