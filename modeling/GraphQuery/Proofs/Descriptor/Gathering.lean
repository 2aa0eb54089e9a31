import GraphQuery.Proofs.Descriptor.FirstMatch
import GraphQuery.Proofs.Descriptor.Same

/-!
# Gathering alternatives

`Descriptor.unionOf` goes through the alternatives from left to right and keeps those that equal none
that it has kept. Since equality is transitive, it does not matter whether an alternative is compared
with what was kept or with everything in front of it, and what was gathered before may be gathered
again together with others. Nor does it matter to a value: the first descriptor that accepts it is
never left out.
-/

namespace GraphQuery.Descriptor

variable {alts ts : List Descriptor} {s t u : Descriptor}

/-! ## What is there already -/

theorem foldl_addAlternative_of_there
    (there : ∀ t ∈ ts, ∃ u ∈ alts, u.same t = true) : ts.foldl addAlternative alts = alts := by
  induction ts with
  | nil => rfl
  | cons t rest ih =>
      obtain ⟨first, others⟩ := List.forall_mem_cons.mp there
      have kept : addAlternative alts t = alts := if_pos (List.any_eq_true.mpr first)
      rw [List.foldl_cons, kept, ih others]

/-- What equals something that was given equals something that was kept. -/
theorem exists_kept_of_same (alts : List Descriptor) (member : t ∈ ts) (equal : t.same s = true) :
    ∃ u ∈ ts.foldl addAlternative alts, u.same s = true := by
  obtain ⟨u, kept, same⟩ := exists_mem_foldl_addAlternative alts member
  exact ⟨u, kept, same_of_eq_or_same same equal⟩

/-- The same alternatives are added, whether they were gathered before or not. -/
theorem foldl_addAlternative_foldl (alts done ts : List Descriptor) :
    (ts.foldl addAlternative done).foldl addAlternative alts =
      ts.foldl addAlternative (done.foldl addAlternative alts) := by
  induction ts generalizing done with
  | nil => rfl
  | cons t rest ih =>
      have one : (addAlternative done t).foldl addAlternative alts =
          addAlternative (done.foldl addAlternative alts) t := by
        by_cases there : (done.any fun u => u.same t) = true
        · obtain ⟨u, member, equal⟩ := List.any_eq_true.mp there
          have kept := exists_kept_of_same alts member equal
          rw [addAlternative, if_pos there, addAlternative, if_pos (List.any_eq_true.mpr kept)]
        · rw [addAlternative, if_neg there, List.foldl_append]
          rfl
      rw [List.foldl_cons, ih, one, List.foldl_cons]

/-! ## First occurrences -/

/-- The descriptors that equal none of those in front of them, be these kept or not. -/
def firstOccurrences : List Descriptor → List Descriptor → List Descriptor
  | _, [] => []
  | front, t :: rest =>
    if front.any fun u => u.same t then firstOccurrences (front ++ [t]) rest
    else t :: firstOccurrences (front ++ [t]) rest

/-- Comparing with what was kept is comparing with everything in front. -/
theorem foldl_addAlternative_eq {front : List Descriptor} (taken : alts ⊆ front)
    (gathered : ∀ t ∈ front, ∃ u ∈ alts, u = t ∨ u.same t = true) (ts : List Descriptor) :
    ts.foldl addAlternative alts = alts ++ firstOccurrences front ts := by
  induction ts generalizing alts front with
  | nil => exact (List.append_nil alts).symm
  | cons t rest ih =>
      rw [List.foldl_cons, firstOccurrences, addAlternative]
      by_cases there : (alts.any fun u => u.same t) = true
      · obtain ⟨u, member, equal⟩ := List.any_eq_true.mp there
        have inFront : (front.any fun u => u.same t) = true :=
          List.any_eq_true.mpr ⟨u, taken member, equal⟩
        rw [if_pos there, if_pos inFront]
        refine ih (List.subset_append_of_subset_left [t] taken) ?_
        intro s before
        rcases List.mem_append.mp before with old | new
        · exact gathered s old
        · rw [List.mem_singleton.mp new]
          exact ⟨u, member, .inr equal⟩
      · have new : ¬ (front.any fun u => u.same t) = true := by
          rw [List.any_eq_true]
          rintro ⟨s, before, equal⟩
          -- What it equals was kept, or something that equals that.
          obtain ⟨u, member, same⟩ := gathered s before
          exact there (List.any_eq_true.mpr ⟨u, member, same_of_eq_or_same same equal⟩)
        rw [if_neg there, if_neg new, List.append_cons alts t (firstOccurrences _ rest)]
        refine ih (List.append_subset.mpr ⟨List.subset_append_of_subset_left [t] taken,
          List.subset_append_right front [t]⟩) ?_
        intro s before
        rcases List.mem_append.mp before with old | new
        · obtain ⟨u, member, equal⟩ := gathered s old
          exact ⟨u, List.mem_append_left [t] member, equal⟩
        · exact ⟨s, List.mem_append_right alts new, .inl rfl⟩

/-! ## Leaving out an equal descriptor -/

/-- A descriptor adds nothing to a union that an equal one would not add. -/
theorem exists_mem_alternatives_of_same (equal : u.same t = true) {a : Descriptor}
    (part : a ∈ t.alternatives) : ∃ b ∈ u.alternatives, b.same a = true := by
  cases t with
  | never => cases part
  | union bs =>
      cases u with
      | union as => exact exists_mem_of_sameItems equal part
      | _ => simp [same] at equal
  | _ =>
      cases List.mem_singleton.mp part
      cases u with
      | union as => simp [same] at equal
      | never => simp [same] at equal
      | _ => exact ⟨_, List.mem_singleton_self _, equal⟩

/-- A union is the same without a descriptor that equals one in front of it. -/
theorem unionOf_without {front : List Descriptor} (back : List Descriptor) (member : u ∈ front)
    (equal : u.same t = true) : unionOf (front ++ t :: back) = unionOf (front ++ back) := by
  have nothing : t.alternatives.foldl addAlternative ((front.flatMap alternatives).foldl
      addAlternative []) = (front.flatMap alternatives).foldl addAlternative [] := by
    refine foldl_addAlternative_of_there ?_
    intro a part
    obtain ⟨b, there, same⟩ := exists_mem_alternatives_of_same equal part
    exact exists_kept_of_same [] (List.mem_flatMap.mpr ⟨u, member, there⟩) same
  rw [unionOf, unionOf, List.flatMap_append, List.flatMap_append, List.flatMap_cons,
    List.foldl_append, List.foldl_append, List.foldl_append, nothing]

/-! ## The meaning of a union -/

/-- The first of the descriptors that accepts a value decides what it is parsed to. -/
theorem parseFirst_of_find {v : Json} (found : ts.find? (fun t => t.validate v) = some t) :
    parseFirst ts v = (t.parse v).toOption := by
  induction ts with
  | nil => cases found
  | cons u rest ih =>
      rw [parseFirst_cons]
      by_cases accepted : u.validate v = true
      · have here : t = u := by simpa [List.find?_cons, accepted] using found.symm
        subst here
        obtain ⟨w, parsed⟩ := validate_iff_parse.mp accepted
        rw [parsed]
        rfl
      · have behind : rest.find? (fun t => t.validate v) = some t := by
          simpa [List.find?_cons, accepted] using found
        have nothing : (u.parse v).toOption = none := by
          cases parsed : u.parse v with
          | error e => rfl
          | ok w =>
              rw [validate, ← isOk_parse, parsed] at accepted
              exact absurd rfl accepted
        rw [nothing, Option.none_or, ih behind]

/-- A union accepts what one of the descriptors accepts that it is built from, present or absent, and
parses a value as the first of them does that accepts it. A descriptor that equals one in front of it
makes no difference, for equal descriptors accept the same values; equality looks past the order of
fields and the sign of zero. -/
theorem unionOf_keeps_meaning (ts : List Descriptor) :
    (∀ x, (unionOf ts).check x = true ↔ ∃ t ∈ ts, t.check x = true) ∧
      (∀ v, (unionOf ts).validate v = true →
        ∃ t w, ts.find? (fun t => t.validate v) = some t ∧ t.parse v = .ok w ∧
          (unionOf ts).parse v = .ok w) ∧
      (∀ front t back, ts = front ++ t :: back → (∃ u ∈ front, u.same t = true) →
        unionOf (front ++ back) = unionOf ts) ∧
      (∀ t u : Descriptor, t.Distinct → u.Distinct → u.same t = true →
        ∀ x, u.check x = t.check x) ∧
      (∀ fs gs, fs.Perm gs → (object gs).Distinct → (object fs).same (object gs) = true) ∧
      ∀ p q, (literal (.number (.zero p))).same (literal (.number (.zero q))) = true := by
  refine ⟨check_unionOf ts, ?_, ?_, ?_, ?_, ?_⟩
  · intro v accepted
    obtain ⟨u, given, accepts⟩ := (check_unionOf ts (some v)).mp accepted
    -- One of the descriptors accepts the value, so there is a first one.
    obtain ⟨t, found⟩ : ∃ t, ts.find? (fun t => t.validate v) = some t :=
      Option.isSome_iff_exists.mp (List.find?_isSome.mpr ⟨u, given, accepts⟩)
    have first : t.validate v = true := by simpa using List.find?_some found
    obtain ⟨w, parsed⟩ := validate_iff_parse.mp first
    obtain ⟨w', parsed'⟩ := validate_iff_parse.mp accepted
    have same : ((unionOf ts).parse v).toOption = (t.parse v).toOption := by
      rw [toOption_parse_unionOf, parseFirst_of_find found]
    rw [parsed, parsed'] at same
    cases same
    exact ⟨t, w, found, parsed, parsed'⟩
  · rintro front t back rfl ⟨u, member, equal⟩
    exact (unionOf_without back member equal).symm
  · intro t u distinct other equal x
    exact check_eq_of_same equal other distinct x
  · intro fs gs perm distinct
    exact same_object_of_perm perm distinct
  · intro p q
    simp [same, Literal.same, Double.same, Double.zero, Double.isZero]

/-- The second object has the fields of the first one in another order. -/
example : unionOf [object [("x", number), ("y", string)], union [null, never],
      object [("y", string), ("x", number)]] =
    union [object [("x", number), ("y", string)], null, never] := rfl

end GraphQuery.Descriptor
