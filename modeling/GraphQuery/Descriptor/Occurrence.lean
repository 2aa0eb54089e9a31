import GraphQuery.Descriptor.Basic

/-!
# Descriptors inside descriptors

`Descriptor.Occurs` finds a descriptor anywhere in another one; `Descriptor.Reachable` finds it
without looking into fields and positions, which is as far as a field is projected. A descriptor is
`Distinct` when none of its objects names a field twice: its fields form a dictionary.
-/

namespace GraphQuery.Descriptor

/-- A descriptor stands somewhere in another one. -/
inductive Occurs (s : Descriptor) : Descriptor → Prop
  | self : Occurs s s
  | option {inner : Descriptor} : Occurs s inner → Occurs s (.option inner)
  | field {fields : List (String × Descriptor)} {name : String} {t : Descriptor} :
      (name, t) ∈ fields → Occurs s t → Occurs s (.object fields)
  | item {item : Descriptor} : Occurs s item → Occurs s (.list item)
  | position {items : List Descriptor} {t : Descriptor} :
      t ∈ items → Occurs s t → Occurs s (.tuple items)
  | alternative {alts : List Descriptor} {t : Descriptor} :
      t ∈ alts → Occurs s t → Occurs s (.union alts)

/-- A descriptor is met in another one through options, unions and lists alone. -/
inductive Reachable (s : Descriptor) : Descriptor → Prop
  | self : Reachable s s
  | option {inner : Descriptor} : Reachable s inner → Reachable s (.option inner)
  | item {item : Descriptor} : Reachable s item → Reachable s (.list item)
  | alternative {alts : List Descriptor} {t : Descriptor} :
      t ∈ alts → Reachable s t → Reachable s (.union alts)

mutual

/-- The test holds of all descriptors that stand in a descriptor. -/
def everywhere (p : Descriptor → Bool) : Descriptor → Bool
  | option inner => p (option inner) && everywhere p inner
  | object fields => p (object fields) && everyField p fields
  | list item => p (list item) && everywhere p item
  | tuple items => p (tuple items) && everyItem p items
  | union alts => p (union alts) && everyItem p alts
  | t => p t

def everyField (p : Descriptor → Bool) : List (String × Descriptor) → Bool
  | [] => true
  | (_, t) :: rest => everywhere p t && everyField p rest

def everyItem (p : Descriptor → Bool) : List Descriptor → Bool
  | [] => true
  | t :: rest => everywhere p t && everyItem p rest

end

/-- No object in the descriptor names a field twice. -/
def Distinct (t : Descriptor) : Prop :=
  ∀ fields, Occurs (.object fields) t → Fields.Distinct fields

/-- There is no union in the descriptor. -/
def UnionFree (t : Descriptor) : Prop := ∀ alts, ¬ Occurs (.union alts) t

theorem Occurs.trans {r s t : Descriptor} (inner : Occurs r s) (outer : Occurs s t) :
    Occurs r t := by
  induction outer with
  | self => exact inner
  | option _ ih => exact .option ih
  | field member _ ih => exact .field member ih
  | item _ ih => exact .item ih
  | position member _ ih => exact .position member ih
  | alternative member _ ih => exact .alternative member ih

theorem Reachable.trans {r s t : Descriptor} (inner : Reachable r s) (outer : Reachable s t) :
    Reachable r t := by
  induction outer with
  | self => exact inner
  | option _ ih => exact .option ih
  | item _ ih => exact .item ih
  | alternative member _ ih => exact .alternative member ih

theorem Reachable.occurs {s t : Descriptor} (part : Reachable s t) : Occurs s t := by
  induction part with
  | self => exact .self
  | option _ ih => exact .option ih
  | item _ ih => exact .item ih
  | alternative member _ ih => exact .alternative member ih

theorem Distinct.of_occurs {s t : Descriptor} (distinct : t.Distinct) (part : Occurs s t) :
    s.Distinct :=
  fun fields inner => distinct fields (inner.trans part)

theorem Distinct.option {inner : Descriptor} (distinct : inner.Distinct) :
    (option inner).Distinct := by
  intro fields part
  cases part with
  | option part => exact distinct fields part

theorem Distinct.list {item : Descriptor} (distinct : item.Distinct) : (list item).Distinct := by
  intro fields part
  cases part with
  | item part => exact distinct fields part

theorem Distinct.tuple {items : List Descriptor} (distinct : ∀ t ∈ items, t.Distinct) :
    (tuple items).Distinct := by
  intro fields part
  cases part with
  | position member part => exact distinct _ member fields part

theorem Distinct.union {alts : List Descriptor} (distinct : ∀ t ∈ alts, t.Distinct) :
    (union alts).Distinct := by
  intro fields part
  cases part with
  | alternative member part => exact distinct _ member fields part

theorem UnionFree.of_occurs {s t : Descriptor} (free : t.UnionFree) (part : Occurs s t) :
    s.UnionFree :=
  fun alts inner => free alts (inner.trans part)

/-! ## Both can be computed -/

variable {p : Descriptor → Bool}

mutual

theorem everywhere_iff (t : Descriptor) :
    t.everywhere p = true ↔ ∀ s, Occurs s t → p s = true := by
  refine ⟨?_, ?_⟩
  · intro all s inside
    cases t with
    | option inner =>
        obtain ⟨here, behind⟩ := Bool.and_eq_true_iff.mp all
        cases inside with
        | self => exact here
        | option part => exact (everywhere_iff inner).mp behind s part
    | object fields =>
        obtain ⟨here, behind⟩ := Bool.and_eq_true_iff.mp all
        cases inside with
        | self => exact here
        | field member part => exact (everyField_iff fields).mp behind _ _ member s part
    | list item =>
        obtain ⟨here, behind⟩ := Bool.and_eq_true_iff.mp all
        cases inside with
        | self => exact here
        | item part => exact (everywhere_iff item).mp behind s part
    | tuple items =>
        obtain ⟨here, behind⟩ := Bool.and_eq_true_iff.mp all
        cases inside with
        | self => exact here
        | position member part => exact (everyItem_iff items).mp behind _ member s part
    | union alts =>
        obtain ⟨here, behind⟩ := Bool.and_eq_true_iff.mp all
        cases inside with
        | self => exact here
        | alternative member part => exact (everyItem_iff alts).mp behind _ member s part
    | _ =>
        cases inside
        exact all
  · intro all
    cases t with
    | option inner =>
        have behind := (everywhere_iff inner).mpr fun s part => all s (.option part)
        exact Bool.and_eq_true_iff.mpr ⟨all _ .self, behind⟩
    | object fields =>
        have behind := (everyField_iff fields).mpr fun _ _ member s part =>
          all s (.field member part)
        exact Bool.and_eq_true_iff.mpr ⟨all _ .self, behind⟩
    | list item =>
        have behind := (everywhere_iff item).mpr fun s part => all s (.item part)
        exact Bool.and_eq_true_iff.mpr ⟨all _ .self, behind⟩
    | tuple items =>
        have behind := (everyItem_iff items).mpr fun _ member s part =>
          all s (.position member part)
        exact Bool.and_eq_true_iff.mpr ⟨all _ .self, behind⟩
    | union alts =>
        have behind := (everyItem_iff alts).mpr fun _ member s part =>
          all s (.alternative member part)
        exact Bool.and_eq_true_iff.mpr ⟨all _ .self, behind⟩
    | _ => exact all _ .self
termination_by structural t

theorem everyField_iff (fields : List (String × Descriptor)) :
    everyField p fields = true ↔
      ∀ name t, (name, t) ∈ fields → ∀ s, Occurs s t → p s = true := by
  match fields with
  | [] => simp [everyField]
  | (key, t) :: rest =>
      rw [everyField, Bool.and_eq_true, everywhere_iff t, everyField_iff rest,
        Fields.forall_mem_cons]
termination_by structural fields

theorem everyItem_iff (items : List Descriptor) :
    everyItem p items = true ↔ ∀ t ∈ items, ∀ s, Occurs s t → p s = true := by
  match items with
  | [] => simp [everyItem]
  | t :: rest =>
      rw [everyItem, Bool.and_eq_true, everywhere_iff t, everyItem_iff rest, List.forall_mem_cons]
termination_by structural items

end

/-- An object names each of its fields once. -/
def declaresOnce : Descriptor → Bool
  | object fields => decide (Fields.names fields).Nodup
  | _ => true

theorem everywhere_declaresOnce (t : Descriptor) :
    t.everywhere declaresOnce = true ↔ t.Distinct := by
  rw [everywhere_iff]
  refine ⟨?_, ?_⟩
  · intro all fields part
    rw [Fields.Distinct]
    exact of_decide_eq_true (all _ part)
  · intro distinct s part
    cases s with
    | object fields =>
        have once : (Fields.names fields).Nodup := distinct fields part
        exact decide_eq_true once
    | _ => rfl

instance : DecidablePred Distinct := fun t => decidable_of_iff _ t.everywhere_declaresOnce

/-- The descriptor is no union. -/
def offersNoChoice : Descriptor → Bool
  | union _ => false
  | _ => true

theorem everywhere_offersNoChoice (t : Descriptor) :
    t.everywhere offersNoChoice = true ↔ t.UnionFree := by
  rw [everywhere_iff]
  refine ⟨?_, ?_⟩
  · intro all alts part
    exact Bool.noConfusion (all _ part)
  · intro free s part
    cases s with
    | union alts => exact absurd part (free alts)
    | _ => rfl

instance : DecidablePred UnionFree := fun t => decidable_of_iff _ t.everywhere_offersNoChoice

end GraphQuery.Descriptor
