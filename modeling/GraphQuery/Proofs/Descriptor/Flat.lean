import GraphQuery.Proofs.Descriptor.Gathering
import GraphQuery.Proofs.Descriptor.Present

/-!
# Flat unions

`Descriptor.unionOf` looks into unions one level deep. That is enough as long as the alternatives of a
union are no unions themselves: such descriptors are flat, and a union that is built from flat ones is
flat again. On flat descriptors the alternatives say everything, and building unions is gathering their
alternatives, so that grouping and repetition do not count.
-/

namespace GraphQuery.Descriptor

variable {t u : Descriptor} {a b ts alts : List Descriptor}

/-- Neither a union nor `never`. -/
def isSingle : Descriptor → Bool
  | union _ => false
  | never => false
  | _ => true

theorem alternatives_of_isSingle (single : t.isSingle = true) : t.alternatives = [t] := by
  cases t with
  | union alts => cases single
  | never => cases single
  | _ => rfl

/-- No union, or a union of two or more alternatives of which no two are equal and none is a union or
`never`. -/
def Flat : Descriptor → Prop
  | union alts => 2 ≤ alts.length ∧ Apart alts ∧ ∀ t ∈ alts, t.isSingle = true
  | _ => True

instance : DecidablePred Flat
  | union alts => inferInstanceAs
      (Decidable (2 ≤ alts.length ∧ alts.Pairwise _ ∧ ∀ t ∈ alts, t.isSingle = true))
  | string | number | bool | null | absent | never | date | uuid => .isTrue trivial
  | literal _ | option _ | record _ | object _ | list _ | tuple _ => .isTrue trivial

/-- Only a union equals a union, and only `never` equals `never`. -/
theorem isSingle_of_same (equal : u.same t = true) (single : t.isSingle = true) :
    u.isSingle = true := by
  cases u with
  | union alts =>
      obtain ⟨_, rfl, _⟩ := same_union equal
      cases single
  | never =>
      cases t with
      | never => cases single
      | _ => simp [same] at equal
  | _ => rfl

/-! ## Alternatives of flat descriptors -/

theorem flat_of_isSingle (single : t.isSingle = true) : t.Flat := by
  cases t with
  | union alts => cases single
  | _ => trivial

theorem Flat.isSingle (flat : t.Flat) (part : u ∈ t.alternatives) : u.isSingle = true := by
  cases t with
  | union alts => exact flat.2.2 u part
  | never => cases part
  | _ =>
      cases List.mem_singleton.mp part
      rfl

theorem Flat.apart (flat : t.Flat) : Apart t.alternatives := by
  cases t with
  | union alts => exact flat.2.1
  | never => exact .nil
  | _ => exact List.pairwise_singleton _ _

/-- A flat descriptor is what its alternatives collapse to. -/
theorem Flat.collapse_alternatives (flat : t.Flat) : collapse t.alternatives = t := by
  cases t with
  | union alts =>
      match alts with
      | [] => exact absurd flat.1 (by simp)
      | [t] => exact absurd flat.1 (by simp)
      | t :: u :: rest => rfl
  | _ => rfl

theorem flat_collapse (apart : Apart alts) (single : ∀ t ∈ alts, t.isSingle = true) :
    (collapse alts).Flat ∧ (collapse alts).alternatives = alts := by
  match alts with
  | [] => exact ⟨trivial, rfl⟩
  | [t] =>
      have here := single t List.mem_cons_self
      exact ⟨flat_of_isSingle here, alternatives_of_isSingle here⟩
  | t :: u :: rest =>
      have more : 2 ≤ (t :: u :: rest).length := by simp
      exact ⟨⟨more, apart, single⟩, rfl⟩

/-! ## Unions of flat descriptors -/

theorem flat_unionOf (flat : ∀ t ∈ ts, t.Flat) : (unionOf ts).Flat ∧
    (unionOf ts).alternatives = (ts.flatMap alternatives).foldl addAlternative [] := by
  refine flat_collapse (Apart.foldl_addAlternative .nil _) ?_
  intro u kept
  rcases mem_of_mem_foldl_addAlternative kept with none | added
  · cases none
  · obtain ⟨t, given, part⟩ := List.mem_flatMap.mp added
    exact (flat t given).isSingle part

theorem unionOf_singleton (flat : t.Flat) : unionOf [t] = t := by
  have kept : t.alternatives.foldl addAlternative [] = t.alternatives :=
    foldl_addAlternative_of_apart flat.apart
  rw [unionOf, List.flatMap_singleton, kept, flat.collapse_alternatives]

/-- It does not matter how the descriptors are grouped. -/
theorem unionOf_append (flat : ∀ t ∈ a, t.Flat) (others : ∀ t ∈ b, t.Flat) :
    unionOf (a ++ b) = unionOf [unionOf a, unionOf b] := by
  obtain ⟨_, left⟩ := flat_unionOf flat
  obtain ⟨_, right⟩ := flat_unionOf others
  have grouped : [unionOf a, unionOf b].flatMap alternatives =
      (a.flatMap alternatives).foldl addAlternative [] ++
        (b.flatMap alternatives).foldl addAlternative [] := by
    rw [List.flatMap_cons, List.flatMap_singleton, left, right]
  rw [unionOf, unionOf, grouped, List.flatMap_append, List.foldl_append, List.foldl_append,
    foldl_addAlternative_foldl, foldl_addAlternative_foldl]
  rfl

/-- Repeating the descriptors adds nothing, since each equals itself. -/
theorem unionOf_append_self (distinct : ∀ t ∈ a, t.Distinct) : unionOf (a ++ a) = unionOf a := by
  have nothing : (a.flatMap alternatives).foldl addAlternative
      ((a.flatMap alternatives).foldl addAlternative []) =
        (a.flatMap alternatives).foldl addAlternative [] := by
    refine foldl_addAlternative_of_there ?_
    intro u given
    obtain ⟨t, member, part⟩ := List.mem_flatMap.mp given
    have own : u.Distinct :=
      (distinct t member).of_occurs (reachable_of_mem_alternatives part).occurs
    exact exists_kept_of_same [] given (same_refl u own)
  rw [unionOf, unionOf, List.flatMap_append, List.foldl_append, nothing]

theorem alternatives_unionOf (flat : ∀ t ∈ ts, t.Flat) :
    (unionOf ts).alternatives = firstOccurrences [] (ts.flatMap alternatives) := by
  rw [(flat_unionOf flat).2, foldl_addAlternative_eq (List.Subset.refl []) fun t none => nomatch none]
  rfl

/-- A union of flat descriptors is `never`, one of their alternatives, or a flat union of them. -/
theorem unionOf_cases {p : Descriptor → Prop} (flat : ∀ t ∈ ts, t.Flat)
    (taken : ∀ t ∈ ts, ∀ u ∈ t.alternatives, p u) (nothing : p never)
    (choice : ∀ alts, (union alts).Flat → (∀ u ∈ alts, p u) → p (union alts)) :
    p (unionOf ts) := by
  obtain ⟨whole, made⟩ := flat_unionOf flat
  have each : ∀ u ∈ (unionOf ts).alternatives, p u := by
    intro u part
    rw [made] at part
    rcases mem_of_mem_foldl_addAlternative part with none | added
    · cases none
    · obtain ⟨t, given, own⟩ := List.mem_flatMap.mp added
      exact taken t given u own
  cases same : unionOf ts with
  | union alts =>
      rw [same] at whole each
      exact choice alts whole each
  | never => exact nothing
  | _ =>
      rw [same] at each
      exact each _ List.mem_cons_self

/-- A union of flat alternatives is built as it is. -/
theorem Flat.unionOf (flat : (union alts).Flat) : unionOf alts = union alts := by
  rw [unionOf_of_apart flat.2.1 fun u part => alternatives_of_isSingle (flat.2.2 u part)]
  exact flat.collapse_alternatives

/-! ## Flat throughout -/

/-- Every union in the descriptor is flat. -/
def FlatThroughout (t : Descriptor) : Prop := ∀ s, Occurs s t → s.Flat

theorem FlatThroughout.flat (flat : t.FlatThroughout) : t.Flat := flat t .self

theorem hereditary_flatThroughout : Hereditary FlatThroughout where
  part := fun flat part s inner => flat s (inner.trans part)
  absent := by
    intro s part
    cases part
    trivial
  option := by
    intro inner flat s part
    cases part with
    | self => trivial
    | option part => exact flat s part
  list := by
    intro item flat s part
    cases part with
    | self => trivial
    | item part => exact flat s part
  unionOf := by
    intro ts flat
    refine unionOf_cases (fun t given => (flat t given).flat) ?_ ?_ ?_
    · intro t given u part s inner
      exact flat t given s (inner.trans (reachable_of_mem_alternatives part).occurs)
    · intro s part
      cases part
      trivial
    · intro alts whole each s part
      cases part with
      | self => exact whole
      | alternative member part => exact each _ member s part

/-! ## Flat outside -/

/-- Every union is flat that is met in the descriptor through options, unions and lists: no matter what
its fields and positions hold. -/
def FlatOutside (t : Descriptor) : Prop := ∀ s, Reachable s t → s.Flat

theorem FlatOutside.flat (flat : t.FlatOutside) : t.Flat := flat t .self

theorem FlatOutside.option (flat : t.FlatOutside) : (option t).FlatOutside := by
  intro s part
  cases part with
  | self => trivial
  | option part => exact flat s part

theorem FlatOutside.list (flat : t.FlatOutside) : (list t).FlatOutside := by
  intro s part
  cases part with
  | self => trivial
  | item part => exact flat s part

theorem FlatOutside.unionOf (flat : ∀ t ∈ ts, t.FlatOutside) : (unionOf ts).FlatOutside := by
  refine unionOf_cases (fun t given => (flat t given).flat) ?_ ?_ ?_
  · intro t given u part s inner
    exact flat t given s (inner.trans (reachable_of_mem_alternatives part))
  · intro s part
    cases part
    trivial
  · intro alts whole each s part
    cases part with
    | self => exact whole
    | alternative member part => exact each _ member s part

/-- Options, lists and unions, through which a shape is met, and the union of nothing. -/
def isFrame : Descriptor → Bool
  | option _ => true
  | list _ => true
  | union _ => true
  | never => true
  | _ => false

/-- Nothing else is met in a shape without a frame. -/
theorem eq_of_reachable (bare : t.isFrame = false) {s : Descriptor} (part : Reachable s t) :
    s = t := by
  cases part with
  | self => rfl
  | _ => cases bare

theorem flatOutside_of_isFrame (bare : t.isFrame = false) : t.FlatOutside := by
  intro s part
  rw [eq_of_reachable bare part]
  cases t with
  | union alts => cases bare
  | _ => trivial

/-- Stripping absence flattens every nest of unions, however it was written. -/
theorem flat_present (t : Descriptor) : t.present.Flat := by
  cases t with
  | option inner =>
      rw [present]
      exact flat_present inner
  | union alts =>
      rw [present]
      refine (flat_unionOf ?_).1
      intro u stays
      obtain ⟨t, member, _, rfl⟩ := mem_presentAlternatives.mp stays
      exact flat_present t
  | _ => trivial
termination_by sizeOf t

end GraphQuery.Descriptor
