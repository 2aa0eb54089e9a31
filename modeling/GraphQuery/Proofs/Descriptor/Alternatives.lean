import GraphQuery.Descriptor.Occurrence
import GraphQuery.Proofs.Fields.Lookup
import Mathlib.Data.List.Perm.Subperm

/-!
# What stands in a union

`Descriptor.unionOf` takes its alternatives from the descriptors it is built from and leaves none out
but those equal to one that it keeps. So what is met in a union is met in one of those descriptors,
unless it is the union itself or nothing at all.
-/

namespace GraphQuery.Descriptor

/-- What a descriptor adds to a union is met in it. -/
theorem reachable_of_mem_alternatives {t u : Descriptor} (member : u ∈ t.alternatives) :
    Reachable u t := by
  cases t with
  | union alts => exact .alternative member .self
  | never => cases member
  | _ =>
      cases List.mem_singleton.mp member
      exact .self

theorem mem_of_mem_foldl_addAlternative {ts alts : List Descriptor} {u : Descriptor}
    (member : u ∈ ts.foldl addAlternative alts) : u ∈ alts ∨ u ∈ ts := by
  induction ts generalizing alts with
  | nil => exact .inl member
  | cons t rest ih =>
      rcases ih member with added | later
      · unfold addAlternative at added
        split at added
        · exact .inl added
        · rcases List.mem_append.mp added with before | here
          · exact .inl before
          · exact .inr (List.mem_singleton.mp here ▸ List.mem_cons_self)
      · exact .inr (List.mem_cons_of_mem t later)

theorem mem_foldl_addAlternative_of_mem {ts alts : List Descriptor} {u : Descriptor}
    (member : u ∈ alts) : u ∈ ts.foldl addAlternative alts := by
  induction ts generalizing alts with
  | nil => exact member
  | cons t rest ih =>
      refine ih ?_
      unfold addAlternative
      split
      · exact member
      · exact List.mem_append_left _ member

/-- An alternative is kept, or one that equals it. -/
theorem exists_mem_foldl_addAlternative {ts : List Descriptor} (alts : List Descriptor)
    {t : Descriptor} (member : t ∈ ts) :
    ∃ u ∈ ts.foldl addAlternative alts, u = t ∨ u.same t = true := by
  induction ts generalizing alts with
  | nil => cases member
  | cons first rest ih =>
      rcases List.mem_cons.mp member with rfl | member
      · -- It is there after its own turn, and stays.
        have added : ∃ u ∈ addAlternative alts t, u = t ∨ u.same t = true := by
          unfold addAlternative
          split
          · next there =>
              obtain ⟨u, member, equal⟩ := List.any_eq_true.mp there
              exact ⟨u, member, .inr equal⟩
          · exact ⟨t, List.mem_append_right _ List.mem_cons_self, .inl rfl⟩
        obtain ⟨u, member, equal⟩ := added
        refine ⟨u, ?_, equal⟩
        rw [List.foldl_cons]
        exact mem_foldl_addAlternative_of_mem member
      · exact ih (addAlternative alts first) member

/-- A union collapses what its parts add to it: each of them, or one that equals it. -/
theorem unionOf_eq_collapse (ts : List Descriptor) : ∃ alts, unionOf ts = collapse alts ∧
    (∀ u ∈ alts, ∃ t ∈ ts, u ∈ t.alternatives) ∧
      ∀ t ∈ ts, ∀ u ∈ t.alternatives, ∃ r ∈ alts, r = u ∨ r.same u = true := by
  refine ⟨(ts.flatMap alternatives).foldl addAlternative [], rfl, ?_, ?_⟩
  · intro u kept
    rcases mem_of_mem_foldl_addAlternative kept with none | added
    · cases none
    · exact List.mem_flatMap.mp added
  · intro t member u part
    exact exists_mem_foldl_addAlternative [] (List.mem_flatMap.mpr ⟨t, member, part⟩)

/-! ## No alternative twice -/

/-- No alternative equals one behind it. -/
def Apart (alts : List Descriptor) : Prop := alts.Pairwise fun u t => u.same t = false

theorem Apart.addAlternative {alts : List Descriptor} (apart : Apart alts) (t : Descriptor) :
    Apart (addAlternative alts t) := by
  unfold Descriptor.addAlternative
  split
  · exact apart
  · next new =>
      rw [List.any_eq_true, not_exists] at new
      rw [Apart, List.pairwise_append]
      refine ⟨apart, List.pairwise_singleton _ _, ?_⟩
      intro u member v last
      rw [List.mem_singleton.mp last]
      exact Bool.eq_false_iff.mpr fun equal => new u ⟨member, equal⟩

theorem Apart.foldl_addAlternative {alts : List Descriptor} (apart : Apart alts)
    (ts : List Descriptor) : Apart (ts.foldl Descriptor.addAlternative alts) := by
  induction ts generalizing alts with
  | nil => exact apart
  | cons t rest ih => exact ih (apart.addAlternative t)

/-- Alternatives of which none equals another are all kept. -/
theorem foldl_addAlternative_of_apart {alts ts : List Descriptor} (apart : Apart (alts ++ ts)) :
    ts.foldl addAlternative alts = alts ++ ts := by
  induction ts generalizing alts with
  | nil => simp
  | cons t rest ih =>
      have new : ¬ (alts.any fun u => u.same t) = true := by
        rw [List.any_eq_true]
        rintro ⟨u, member, equal⟩
        have unequal := (List.pairwise_append.mp apart).2.2 u member t List.mem_cons_self
        rw [unequal] at equal
        cases equal
      rw [List.append_cons] at apart ⊢
      rw [List.foldl_cons, addAlternative, if_neg new]
      exact ih apart

/-- What a union is made of may be put into a union again. -/
theorem unionOf_of_apart {alts : List Descriptor} (apart : Apart alts)
    (single : ∀ u ∈ alts, u.alternatives = [u]) : unionOf alts = collapse alts := by
  have parts : alts.flatMap alternatives = alts := by
    rw [List.flatMap_congr single, List.flatMap_singleton']
  have kept : alts.foldl addAlternative [] = alts := foldl_addAlternative_of_apart apart
  rw [unionOf, parts, kept]

/-! ## Being met in a union -/

theorem reachable_collapse {alts : List Descriptor} {s : Descriptor}
    (inside : Reachable s (collapse alts)) :
    s = never ∨ (∃ t u rest, s = union (t :: u :: rest)) ∨ ∃ u ∈ alts, Reachable s u := by
  match alts with
  | [] =>
      cases inside
      exact .inl rfl
  | [t] => exact .inr (.inr ⟨t, List.mem_cons_self, inside⟩)
  | t :: u :: rest =>
      change Reachable s (union (t :: u :: rest)) at inside
      cases inside with
      | self => exact .inr (.inl ⟨t, u, rest, rfl⟩)
      | alternative member inside => exact .inr (.inr ⟨_, member, inside⟩)

/-- Every alternative is met, also when it is the only one. -/
theorem reachable_of_mem_collapse {alts : List Descriptor} {u : Descriptor} (member : u ∈ alts) :
    Reachable u (collapse alts) := by
  match alts with
  | [] => cases member
  | [t] =>
      cases List.mem_singleton.mp member
      exact .self
  | t :: v :: rest =>
      show Reachable u (union (t :: v :: rest))
      exact .alternative member .self

/-- What is met in a union of descriptors is met in one of them. -/
theorem reachable_unionOf {ts : List Descriptor} {s : Descriptor}
    (inside : Reachable s (unionOf ts)) :
    s = never ∨ (∃ t u rest, s = union (t :: u :: rest)) ∨ ∃ t ∈ ts, Reachable s t := by
  obtain ⟨alts, made, taken, _⟩ := unionOf_eq_collapse ts
  rw [made] at inside
  rcases reachable_collapse inside with none | choice | ⟨u, member, inside⟩
  · exact .inl none
  · exact .inr (.inl choice)
  · obtain ⟨t, given, part⟩ := taken u member
    exact .inr (.inr ⟨t, given, inside.trans (reachable_of_mem_alternatives part)⟩)

/-- Absence is the only alternative of absences. -/
theorem unionOf_replicate_absent (n : Nat) : unionOf (List.replicate (n + 1) absent) = absent := by
  have added : (List.replicate n absent).flatMap alternatives = List.replicate n absent := by
    induction n with
    | zero => rfl
    | succ n ih =>
        rw [List.replicate_succ, List.flatMap_cons, ih]
        rfl
  have kept : (List.replicate n absent).foldl addAlternative [absent] = [absent] := by
    clear added
    induction n with
    | zero => rfl
    | succ n ih =>
        rw [List.replicate_succ, List.foldl_cons]
        exact ih
  rw [unionOf, List.replicate_succ, List.flatMap_cons, added]
  show collapse ((List.replicate n absent).foldl addAlternative [absent]) = absent
  rw [kept]
  rfl

theorem occurs_collapse {alts : List Descriptor} {fields : List (String × Descriptor)}
    (inside : Occurs (.object fields) (collapse alts)) : ∃ u ∈ alts, Occurs (.object fields) u := by
  match alts with
  | [] => cases inside
  | [t] => exact ⟨t, List.mem_cons_self, inside⟩
  | t :: u :: rest =>
      change Occurs _ (union (t :: u :: rest)) at inside
      cases inside with
      | alternative member inside => exact ⟨_, member, inside⟩

/-- A union is a dictionary everywhere if the descriptors are that it is built from. -/
theorem Distinct.unionOf {ts : List Descriptor} (distinct : ∀ t ∈ ts, t.Distinct) :
    (unionOf ts).Distinct := by
  intro fields inside
  obtain ⟨alts, made, taken, _⟩ := unionOf_eq_collapse ts
  rw [made] at inside
  obtain ⟨u, member, inside⟩ := occurs_collapse inside
  obtain ⟨t, given, part⟩ := taken u member
  exact distinct t given fields (inside.trans (reachable_of_mem_alternatives part).occurs)

/-! ## Equal descriptors -/

theorem lookup_of_sameFields {fs gs : List (String × Descriptor)} (equal : sameFields fs gs = true)
    {name : String} {u : Descriptor} (member : (name, u) ∈ fs) :
    ∃ t, gs.lookup name = some t ∧ u.same t = true := by
  induction fs with
  | nil => cases member
  | cons field rest ih =>
      rw [sameFields, Bool.and_eq_true] at equal
      rcases List.mem_cons.mp member with rfl | member
      · split at equal
        · next t found => exact ⟨t, found, equal.1⟩
        · cases equal.1
      · exact ih equal.2 member

/-- Equal objects that are dictionaries declare the same names. -/
theorem lookup_of_same {fs gs : List (String × Descriptor)} (distinct : Fields.Distinct fs)
    (equal : (object fs).same (object gs) = true) {name : String} {t : Descriptor}
    (declared : gs.lookup name = some t) :
    ∃ u, fs.lookup name = some u ∧ u.same t = true := by
  rw [same, Bool.and_eq_true, beq_iff_eq] at equal
  obtain ⟨lengths, fields⟩ := equal
  have names : Fields.names gs ⊆ Fields.names fs := by
    -- As many names, all of them among the others and none twice: the same names.
    have among : Fields.names fs ⊆ Fields.names gs := by
      intro name member
      obtain ⟨⟨name, u⟩, listed, rfl⟩ := List.mem_map.mp member
      obtain ⟨t, found, _⟩ := lookup_of_sameFields fields listed
      exact List.mem_map.mpr ⟨(name, t), Fields.mem_of_lookup found, rfl⟩
    have perm := (List.subperm_of_subset distinct among).perm_of_length_le
      (by simp [Fields.names, lengths])
    exact perm.symm.subset
  obtain ⟨u, found⟩ := Fields.lookup_of_mem_names
    (names (List.mem_map.mpr ⟨(name, t), Fields.mem_of_lookup declared, rfl⟩))
  obtain ⟨t', found', same⟩ := lookup_of_sameFields fields (Fields.mem_of_lookup found)
  rw [declared] at found'
  cases found'
  exact ⟨u, found, same⟩

theorem exists_mem_of_sameItems {as bs : List Descriptor} (equal : sameItems as bs = true)
    {b : Descriptor} (member : b ∈ bs) : ∃ a ∈ as, a.same b = true := by
  induction bs generalizing as with
  | nil => cases member
  | cons first rest ih =>
      cases as with
      | nil => cases equal
      | cons a as =>
          rw [sameItems, Bool.and_eq_true] at equal
          rcases List.mem_cons.mp member with rfl | member
          · exact ⟨a, List.mem_cons_self, equal.1⟩
          · obtain ⟨a', member', equal'⟩ := ih equal.2 member
            exact ⟨a', List.mem_cons_of_mem a member', equal'⟩

/-- In equal descriptors equal descriptors are met. -/
theorem reachable_of_same {s t u : Descriptor} (inside : Reachable s t) (equal : u.same t = true) :
    ∃ r, Reachable r u ∧ r.same s = true := by
  induction inside generalizing u with
  | self => exact ⟨u, .self, equal⟩
  | option _ ih =>
      cases u with
      | option inner =>
          obtain ⟨r, part, same⟩ := ih equal
          exact ⟨r, .option part, same⟩
      | _ => simp [same] at equal
  | item _ ih =>
      cases u with
      | list item =>
          obtain ⟨r, part, same⟩ := ih equal
          exact ⟨r, .item part, same⟩
      | _ => simp [same] at equal
  | alternative member _ ih =>
      cases u with
      | union alts =>
          obtain ⟨a, member, equal⟩ := exists_mem_of_sameItems equal member
          obtain ⟨r, part, same⟩ := ih equal
          exact ⟨r, .alternative member part, same⟩
      | _ => simp [same] at equal

end GraphQuery.Descriptor
