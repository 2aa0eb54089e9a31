import GraphQuery.Descriptor.Check
import GraphQuery.Proofs.Fields.Lookup

/-!
# What a union accepts

`Descriptor.unionOf` flattens unions, leaves out `never`, and of equal alternatives keeps the first.
None of this changes what is accepted: a value has the shape of the union exactly when it has the
shape of one of the alternatives it was built from. Equality of descriptors looks past the order of
fields and the sign of zero, so what counts is that of two equal descriptors the one that is kept
accepts what the other one does.
-/

namespace GraphQuery

theorem Double.same_trans {x y z : Double} (left : x.same y = true) (right : y.same z = true) :
    x.same z = true := by
  simp only [Double.same, Double.isZero, Bool.and_eq_true, Bool.or_eq_true, beq_iff_eq] at left right ⊢
  obtain ⟨⟨significand, exponent⟩, sign⟩ := left
  obtain ⟨⟨significand', exponent'⟩, sign'⟩ := right
  refine ⟨⟨significand.trans significand', exponent.trans exponent'⟩, ?_⟩
  rcases sign with sign | zero
  · rcases sign' with sign' | zero'
    · exact .inl (sign.trans sign')
    · exact .inr (significand.trans zero')
  · exact .inr zero

/-- Equal constants are equalled by the same values. -/
theorem Literal.matchesValue_of_same {a b : Literal} {v : Json} (equal : a.same b = true)
    (fits : b.matchesValue v = true) : a.matchesValue v = true := by
  cases a with
  | bool p =>
      cases b with
      | bool q =>
          obtain rfl : p = q := by simpa [Literal.same] using equal
          exact fits
      | _ => cases equal
  | number x =>
      cases b with
      | number y =>
          cases v with
          | number n =>
              simp only [Literal.matchesValue] at fits ⊢
              cases double : n.toDouble? with
              | none => simp [double] at fits
              | some z =>
                  rw [double] at fits
                  exact Double.same_trans equal fits
          | _ => cases fits
      | _ => cases equal
  | string s =>
      cases b with
      | string r =>
          obtain rfl : s = r := by simpa [Literal.same] using equal
          exact fits
      | _ => cases equal

namespace Descriptor

theorem checkAny_iff {alts : List Descriptor} {x : Option Json} :
    checkAny alts x = true ↔ ∃ t ∈ alts, t.check x = true := by
  induction alts with
  | nil => simp [checkAny]
  | cons t rest ih => simp [checkAny, ih]

theorem checkFields_iff {fields : List (String × Descriptor)} {entries : List (String × Json)} :
    checkFields fields entries = true ↔
      ∀ name t, (name, t) ∈ fields → t.check (entries.lookup name) = true := by
  induction fields with
  | nil => simp [checkFields]
  | cons field rest ih =>
      obtain ⟨name, t⟩ := field
      rw [checkFields, Bool.and_eq_true, ih, Fields.forall_mem_cons]

theorem checkItems_iff {items : List Descriptor} {xs : List Json} :
    checkItems items xs = true ↔
      items.length = xs.length ∧
        ∀ (i : Nat) t x, items[i]? = some t → xs[i]? = some x → t.check (some x) = true := by
  induction items generalizing xs with
  | nil => cases xs <;> simp [checkItems]
  | cons t rest ih =>
      cases xs with
      | nil => simp [checkItems]
      | cons x xs =>
          rw [checkItems, Bool.and_eq_true, ih, List.length_cons, List.length_cons,
            Nat.add_right_cancel_iff]
          refine ⟨?_, ?_⟩
          · rintro ⟨first, lengths, others⟩
            refine ⟨lengths, ?_⟩
            intro i u y atShape atInput
            cases i with
            | zero =>
                cases atShape
                cases atInput
                exact first
            | succ i => exact others i u y atShape atInput
          · rintro ⟨lengths, each⟩
            refine ⟨each 0 t x rfl rfl, lengths, ?_⟩
            intro i u y atShape atInput
            exact each (i + 1) u y atShape atInput

mutual

/-- A descriptor accepts what an equal one accepts. -/
theorem check_of_same (u t : Descriptor) (equal : u.same t = true) (x : Option Json)
    (accepted : t.check x = true) : u.check x = true := by
  cases u with
  | literal a =>
      cases t with
      | literal b =>
          cases x with
          | none => cases accepted
          | some v => exact Literal.matchesValue_of_same equal accepted
      | _ => simp [same] at equal
  | option a =>
      cases t with
      | option b =>
          cases x with
          | none => rfl
          | some v => exact check_of_same a b equal (some v) accepted
      | _ => simp [same] at equal
  | record table =>
      cases t with
      | record other =>
          obtain rfl : table = other := by simpa [same] using equal
          exact accepted
      | _ => simp [same] at equal
  | object fs =>
      cases t with
      | object gs =>
          have fields : sameFields fs gs = true := by
            rw [same, Bool.and_eq_true] at equal
            exact equal.2
          cases x with
          | none => cases accepted
          | some v =>
              cases v with
              | object entries => exact checkFields_of_same fs gs fields entries accepted
              | _ => simp [check, acceptsScalar] at accepted
      | _ => simp [same] at equal
  | list a =>
      cases t with
      | list b =>
          cases x with
          | none => cases accepted
          | some v =>
              cases v with
              | array xs =>
                  rw [check, List.all_eq_true] at accepted ⊢
                  intro y member
                  exact check_of_same a b equal (some y) (accepted y member)
              | _ => simp [check, acceptsScalar] at accepted
      | _ => simp [same] at equal
  | tuple as =>
      cases t with
      | tuple bs =>
          cases x with
          | none => cases accepted
          | some v =>
              cases v with
              | array xs => exact checkItems_of_same as bs equal xs accepted
              | _ => simp [check, acceptsScalar] at accepted
      | _ => simp [same] at equal
  | union as =>
      cases t with
      | union bs => exact checkAny_of_same as bs equal x accepted
      | _ => simp [same] at equal
  | _ =>
      -- A kind without parts is equal to itself alone.
      cases t with
      | _ => first | exact accepted | simp [same] at equal
termination_by structural u

/-- Every field of the one is a field of the other, so less is asked of a value. -/
theorem checkFields_of_same (fs gs : List (String × Descriptor))
    (equal : sameFields fs gs = true) (entries : List (String × Json))
    (accepted : checkFields gs entries = true) : checkFields fs entries = true := by
  cases fs with
  | nil => rfl
  | cons field rest =>
      obtain ⟨name, u⟩ := field
      rw [sameFields, Bool.and_eq_true] at equal
      obtain ⟨first, others⟩ := equal
      cases found : gs.lookup name with
      | none => simp [found] at first
      | some t =>
          rw [found] at first
          have declared := checkFields_iff.mp accepted name t (Fields.mem_of_lookup found)
          rw [checkFields, Bool.and_eq_true]
          exact ⟨check_of_same u t first _ declared,
            checkFields_of_same rest gs others entries accepted⟩
termination_by structural fs

theorem checkItems_of_same (as bs : List Descriptor) (equal : sameItems as bs = true)
    (xs : List Json) (accepted : checkItems bs xs = true) : checkItems as xs = true := by
  cases as with
  | nil =>
      cases bs with
      | nil => exact accepted
      | cons b bs => cases equal
  | cons a as =>
      cases bs with
      | nil => cases equal
      | cons b bs =>
          rw [sameItems, Bool.and_eq_true] at equal
          cases xs with
          | nil => cases accepted
          | cons x xs =>
              rw [checkItems, Bool.and_eq_true] at accepted ⊢
              exact ⟨check_of_same a b equal.1 (some x) accepted.1,
                checkItems_of_same as bs equal.2 xs accepted.2⟩
termination_by structural as

theorem checkAny_of_same (as bs : List Descriptor) (equal : sameItems as bs = true)
    (x : Option Json) (accepted : checkAny bs x = true) : checkAny as x = true := by
  cases as with
  | nil =>
      cases bs with
      | nil => exact accepted
      | cons b bs => cases equal
  | cons a as =>
      cases bs with
      | nil => cases equal
      | cons b bs =>
          rw [sameItems, Bool.and_eq_true] at equal
          rw [checkAny, Bool.or_eq_true] at accepted ⊢
          rcases accepted with first | others
          · exact .inl (check_of_same a b equal.1 x first)
          · exact .inr (checkAny_of_same as bs equal.2 x others)
termination_by structural as

end

/-- A descriptor accepts what one of the alternatives accepts that it adds to a union. -/
theorem check_alternatives (t : Descriptor) (x : Option Json) :
    (∃ u ∈ t.alternatives, u.check x = true) ↔ t.check x = true := by
  cases t with
  | union alts =>
      rw [check]
      exact checkAny_iff.symm
  | never => cases x <;> simp [alternatives, check, acceptsScalar]
  | _ => simp [alternatives]

/-- An alternative that is left out is accepted by the equal one that is there. -/
theorem check_addAlternative (alts : List Descriptor) (t : Descriptor) (x : Option Json) :
    (∃ u ∈ addAlternative alts t, u.check x = true) ↔
      (∃ u ∈ alts, u.check x = true) ∨ t.check x = true := by
  unfold addAlternative
  split
  · next there =>
      obtain ⟨u, member, equal⟩ := List.any_eq_true.mp there
      refine ⟨.inl, ?_⟩
      rintro (accepted | accepted)
      · exact accepted
      · exact ⟨u, member, check_of_same u t equal x accepted⟩
  · simp only [List.mem_append, List.mem_singleton, or_and_right, exists_or, exists_eq_left]

theorem check_foldl_addAlternative (alts ts : List Descriptor) (x : Option Json) :
    (∃ u ∈ ts.foldl addAlternative alts, u.check x = true) ↔
      (∃ u ∈ alts, u.check x = true) ∨ ∃ t ∈ ts, t.check x = true := by
  induction ts generalizing alts with
  | nil => simp
  | cons t rest ih =>
      rw [List.foldl_cons, ih, check_addAlternative, or_assoc]
      simp only [List.mem_cons, exists_eq_or_imp]

theorem check_collapse (alts : List Descriptor) (x : Option Json) :
    (collapse alts).check x = true ↔ ∃ u ∈ alts, u.check x = true := by
  match alts with
  | [] => cases x <;> simp [collapse, check, acceptsScalar]
  | [t] => simp [collapse]
  | t :: u :: rest =>
      show (union (t :: u :: rest)).check x = true ↔ _
      rw [check]
      exact checkAny_iff

/-- A union accepts what one of the descriptors accepts that it is built from, present or absent. -/
theorem check_unionOf (ts : List Descriptor) (x : Option Json) :
    (unionOf ts).check x = true ↔ ∃ t ∈ ts, t.check x = true := by
  rw [unionOf, check_collapse, check_foldl_addAlternative]
  simp only [List.not_mem_nil, false_and, exists_false, false_or, List.mem_flatMap]
  refine ⟨?_, ?_⟩
  · rintro ⟨u, ⟨t, member, part⟩, accepted⟩
    exact ⟨t, member, (check_alternatives t x).mp ⟨u, part, accepted⟩⟩
  · rintro ⟨t, member, accepted⟩
    obtain ⟨u, part, accepted⟩ := (check_alternatives t x).mpr accepted
    exact ⟨u, ⟨t, member, part⟩, accepted⟩

end Descriptor

end GraphQuery
