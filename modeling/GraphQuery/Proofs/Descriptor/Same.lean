import GraphQuery.Proofs.Descriptor.Alternatives
import GraphQuery.Proofs.Descriptor.Union

/-!
# Equality of descriptors

`Descriptor.same` looks past the order of fields and the sign of zero. It is transitive on all
descriptors. On those whose objects are dictionaries it is reflexive and symmetric too; an object that
names a field twice does not even equal itself, since look-up finds the first entry of a name alone.
-/

namespace GraphQuery

theorem Double.same_refl (x : Double) : x.same x = true := by simp [Double.same]

theorem Double.same_symm {x y : Double} (equal : x.same y = true) : y.same x = true := by
  simp only [Double.same, Double.isZero, Bool.and_eq_true, Bool.or_eq_true, beq_iff_eq] at equal ⊢
  obtain ⟨⟨significand, exponent⟩, sign⟩ := equal
  refine ⟨⟨significand.symm, exponent.symm⟩, ?_⟩
  rcases sign with sign | zero
  · exact .inl sign.symm
  · exact .inr (significand ▸ zero)

namespace Literal

theorem same_refl (a : Literal) : a.same a = true := by
  cases a with
  | number x => exact x.same_refl
  | _ => exact beq_self_eq_true _

theorem same_symm {a b : Literal} (equal : a.same b = true) : b.same a = true := by
  cases a with
  | number x =>
      cases b with
      | number y => exact Double.same_symm equal
      | _ => cases equal
  | bool p =>
      cases b with
      | bool q => exact BEq.symm equal
      | _ => cases equal
  | string s =>
      cases b with
      | string r => exact BEq.symm equal
      | _ => cases equal

theorem same_trans {a b c : Literal} (left : a.same b = true) (right : b.same c = true) :
    a.same c = true := by
  cases a with
  | number x =>
      cases b with
      | number y =>
          cases c with
          | number z => exact Double.same_trans left right
          | _ => cases right
      | _ => cases left
  | bool p =>
      cases b with
      | bool q =>
          obtain rfl : p = q := by simpa [same] using left
          exact right
      | _ => cases left
  | string s =>
      cases b with
      | string r =>
          obtain rfl : s = r := by simpa [same] using left
          exact right
      | _ => cases left

end Literal

namespace Descriptor

variable {t u : Descriptor}

/-! ## What a descriptor with parts equals -/

theorem same_literal {a : Literal} (equal : (literal a).same t = true) :
    ∃ b, t = literal b ∧ a.same b = true := by
  cases t with
  | literal b => exact ⟨b, rfl, equal⟩
  | _ => simp [same] at equal

theorem same_option {a : Descriptor} (equal : (option a).same t = true) :
    ∃ b, t = option b ∧ a.same b = true := by
  cases t with
  | option b => exact ⟨b, rfl, equal⟩
  | _ => simp [same] at equal

theorem same_list {a : Descriptor} (equal : (list a).same t = true) :
    ∃ b, t = list b ∧ a.same b = true := by
  cases t with
  | list b => exact ⟨b, rfl, equal⟩
  | _ => simp [same] at equal

theorem same_object {fs : List (String × Descriptor)} (equal : (object fs).same t = true) :
    ∃ gs, t = object gs ∧ fs.length = gs.length ∧ sameFields fs gs = true := by
  cases t with
  | object gs =>
      rw [same, Bool.and_eq_true, beq_iff_eq] at equal
      exact ⟨gs, rfl, equal⟩
  | _ => simp [same] at equal

theorem same_tuple {as : List Descriptor} (equal : (tuple as).same t = true) :
    ∃ bs, t = tuple bs ∧ sameItems as bs = true := by
  cases t with
  | tuple bs => exact ⟨bs, rfl, equal⟩
  | _ => simp [same] at equal

theorem same_union {as : List Descriptor} (equal : (union as).same t = true) :
    ∃ bs, t = union bs ∧ sameItems as bs = true := by
  cases t with
  | union bs => exact ⟨bs, rfl, equal⟩
  | _ => simp [same] at equal

/-! ## Transitivity -/

mutual

theorem same_trans (u t s : Descriptor) (left : u.same t = true) (right : t.same s = true) :
    u.same s = true := by
  cases u with
  | literal a =>
      obtain ⟨b, rfl, left⟩ := same_literal left
      obtain ⟨c, rfl, right⟩ := same_literal right
      exact Literal.same_trans left right
  | option a =>
      obtain ⟨b, rfl, left⟩ := same_option left
      obtain ⟨c, rfl, right⟩ := same_option right
      exact same_trans a b c left right
  | list a =>
      obtain ⟨b, rfl, left⟩ := same_list left
      obtain ⟨c, rfl, right⟩ := same_list right
      exact same_trans a b c left right
  | object fs =>
      obtain ⟨gs, rfl, lengths, left⟩ := same_object left
      obtain ⟨hs, rfl, lengths', right⟩ := same_object right
      rw [same, Bool.and_eq_true, beq_iff_eq]
      exact ⟨lengths.trans lengths', sameFields_trans fs gs hs left right⟩
  | tuple as =>
      obtain ⟨bs, rfl, left⟩ := same_tuple left
      obtain ⟨cs, rfl, right⟩ := same_tuple right
      exact sameItems_trans as bs cs left right
  | union as =>
      obtain ⟨bs, rfl, left⟩ := same_union left
      obtain ⟨cs, rfl, right⟩ := same_union right
      exact sameItems_trans as bs cs left right
  | record table =>
      cases t with
      | record other =>
          obtain rfl : table = other := by simpa [same] using left
          exact right
      | _ => simp [same] at left
  | _ =>
      -- A kind without parts is equal to itself alone.
      cases t with
      | _ => first | exact right | simp [same] at left
termination_by structural u

theorem sameFields_trans (fs gs hs : List (String × Descriptor))
    (left : sameFields fs gs = true) (right : sameFields gs hs = true) :
    sameFields fs hs = true := by
  cases fs with
  | nil => rfl
  | cons field rest =>
      obtain ⟨name, u⟩ := field
      rw [sameFields, Bool.and_eq_true] at left
      obtain ⟨first, others⟩ := left
      cases found : gs.lookup name with
      | none => simp [found] at first
      | some t =>
          rw [found] at first
          obtain ⟨s, there, equal⟩ := lookup_of_sameFields right (Fields.mem_of_lookup found)
          rw [sameFields, there, Bool.and_eq_true]
          exact ⟨same_trans u t s first equal, sameFields_trans rest gs hs others right⟩
termination_by structural fs

theorem sameItems_trans (as bs cs : List Descriptor) (left : sameItems as bs = true)
    (right : sameItems bs cs = true) : sameItems as cs = true := by
  cases as with
  | nil =>
      cases bs with
      | nil => exact right
      | cons b bs => cases left
  | cons a as =>
      cases bs with
      | nil => cases left
      | cons b bs =>
          cases cs with
          | nil => cases right
          | cons c cs =>
              rw [sameItems, Bool.and_eq_true] at left right ⊢
              exact ⟨same_trans a b c left.1 right.1, sameItems_trans as bs cs left.2 right.2⟩
termination_by structural as

end

/-- A union keeps a descriptor or one that equals it: either equals what the descriptor equals. -/
theorem same_of_eq_or_same {s : Descriptor} (kept : u = t ∨ u.same t = true)
    (equal : t.same s = true) : u.same s = true := by
  rcases kept with rfl | same
  · exact equal
  · exact same_trans u t s same equal

/-! ## Reflexivity -/

mutual

theorem same_refl (t : Descriptor) (distinct : t.Distinct) : t.same t = true := by
  cases t with
  | literal a => exact a.same_refl
  | option inner => exact same_refl inner (distinct.of_occurs (.option .self))
  | list item => exact same_refl item (distinct.of_occurs (.item .self))
  | record table => exact beq_self_eq_true table
  | object fields =>
      have once : Fields.Distinct fields := distinct fields .self
      rw [same, Bool.and_eq_true, beq_iff_eq]
      exact ⟨rfl, sameFields_of_lookup fields fields fun name t member =>
        ⟨once.lookup member, distinct.of_occurs (.field member .self)⟩⟩
  | tuple items =>
      exact sameItems_refl items fun t member => distinct.of_occurs (.position member .self)
  | union alts =>
      exact sameItems_refl alts fun t member => distinct.of_occurs (.alternative member .self)
  | _ => rfl
termination_by structural t

/-- Fields that are found among others as they are equal them. -/
theorem sameFields_of_lookup (fs gs : List (String × Descriptor))
    (there : ∀ name t, (name, t) ∈ fs → gs.lookup name = some t ∧ t.Distinct) :
    sameFields fs gs = true := by
  cases fs with
  | nil => rfl
  | cons field rest =>
      obtain ⟨name, t⟩ := field
      obtain ⟨⟨found, distinct⟩, others⟩ := Fields.forall_mem_cons.mp there
      rw [sameFields, found, Bool.and_eq_true]
      exact ⟨same_refl t distinct, sameFields_of_lookup rest gs others⟩
termination_by structural fs

theorem sameItems_refl (items : List Descriptor) (distinct : ∀ t ∈ items, t.Distinct) :
    sameItems items items = true := by
  cases items with
  | nil => rfl
  | cons t rest =>
      obtain ⟨first, others⟩ := List.forall_mem_cons.mp distinct
      rw [sameItems, Bool.and_eq_true]
      exact ⟨same_refl t first, sameItems_refl rest others⟩
termination_by structural items

end

/-- The order of fields does not count. -/
theorem same_object_of_perm {fs gs : List (String × Descriptor)} (perm : fs.Perm gs)
    (distinct : (object gs).Distinct) : (object fs).same (object gs) = true := by
  have once : Fields.Distinct gs := distinct gs .self
  rw [same, Bool.and_eq_true, beq_iff_eq]
  refine ⟨perm.length_eq, sameFields_of_lookup fs gs ?_⟩
  intro name t member
  have there : (name, t) ∈ gs := perm.subset member
  exact ⟨once.lookup there, distinct.of_occurs (.field there .self)⟩

/-! ## Symmetry -/

/-- Equal are fields of which each is found among the others. -/
theorem sameFields_of_each {fs gs : List (String × Descriptor)}
    (each : ∀ name t, (name, t) ∈ fs → ∃ u, gs.lookup name = some u ∧ t.same u = true) :
    sameFields fs gs = true := by
  induction fs with
  | nil => rfl
  | cons field rest ih =>
      obtain ⟨name, t⟩ := field
      obtain ⟨⟨u, found, equal⟩, others⟩ := Fields.forall_mem_cons.mp each
      rw [sameFields, found, Bool.and_eq_true]
      exact ⟨equal, ih others⟩

mutual

theorem same_symm (u t : Descriptor) (equal : u.same t = true) (distinct : u.Distinct)
    (other : t.Distinct) : t.same u = true := by
  cases u with
  | literal a =>
      obtain ⟨b, rfl, equal⟩ := same_literal equal
      exact Literal.same_symm equal
  | option a =>
      obtain ⟨b, rfl, equal⟩ := same_option equal
      exact same_symm a b equal (distinct.of_occurs (.option .self))
        (other.of_occurs (.option .self))
  | list a =>
      obtain ⟨b, rfl, equal⟩ := same_list equal
      exact same_symm a b equal (distinct.of_occurs (.item .self)) (other.of_occurs (.item .self))
  | object fs =>
      obtain ⟨gs, rfl, lengths, _⟩ := same_object equal
      have once : Fields.Distinct gs := other gs .self
      rw [same, Bool.and_eq_true, beq_iff_eq]
      refine ⟨lengths.symm, sameFields_of_each ?_⟩
      intro name t member
      -- As many names and none twice: what the one declares, the other one declares too.
      obtain ⟨u, found, equal⟩ := lookup_of_same (distinct fs .self) equal (once.lookup member)
      exact ⟨u, found, same_symm_of_mem fs (fun _ _ there => distinct.of_occurs (.field there .self))
        name u (Fields.mem_of_lookup found) t equal (other.of_occurs (.field member .self))⟩
  | tuple as =>
      obtain ⟨bs, rfl, equal⟩ := same_tuple equal
      exact sameItems_symm as bs equal
        (fun _ member => distinct.of_occurs (.position member .self))
        (fun _ member => other.of_occurs (.position member .self))
  | union as =>
      obtain ⟨bs, rfl, equal⟩ := same_union equal
      exact sameItems_symm as bs equal
        (fun _ member => distinct.of_occurs (.alternative member .self))
        (fun _ member => other.of_occurs (.alternative member .self))
  | record table =>
      cases t with
      | record other => exact BEq.symm equal
      | _ => simp [same] at equal
  | _ =>
      cases t with
      | _ => first | rfl | simp [same] at equal
termination_by structural u

theorem same_symm_of_mem (fs : List (String × Descriptor))
    (distinct : ∀ name u, (name, u) ∈ fs → u.Distinct) :
    ∀ name u, (name, u) ∈ fs → ∀ t : Descriptor, u.same t = true → t.Distinct →
      t.same u = true := by
  cases fs with
  | nil => exact fun _ _ member => absurd member List.not_mem_nil
  | cons field rest =>
      obtain ⟨key, first⟩ := field
      obtain ⟨here, others⟩ := Fields.forall_mem_cons.mp distinct
      exact Fields.forall_mem_cons.mpr
        ⟨fun t equal other => same_symm first t equal here other, same_symm_of_mem rest others⟩
termination_by structural fs

theorem sameItems_symm (as bs : List Descriptor) (equal : sameItems as bs = true)
    (distinct : ∀ a ∈ as, a.Distinct) (other : ∀ b ∈ bs, b.Distinct) :
    sameItems bs as = true := by
  cases as with
  | nil =>
      cases bs with
      | nil => rfl
      | cons b bs => cases equal
  | cons a as =>
      cases bs with
      | nil => cases equal
      | cons b bs =>
          rw [sameItems, Bool.and_eq_true] at equal ⊢
          obtain ⟨first, others⟩ := List.forall_mem_cons.mp distinct
          obtain ⟨first', others'⟩ := List.forall_mem_cons.mp other
          exact ⟨same_symm a b equal.1 first first', sameItems_symm as bs equal.2 others others'⟩
termination_by structural as

end

/-- Equal descriptors accept the same values. -/
theorem check_eq_of_same (equal : u.same t = true) (distinct : u.Distinct) (other : t.Distinct)
    (x : Option Json) : u.check x = t.check x := by
  rw [Bool.eq_iff_iff]
  exact ⟨check_of_same t u (same_symm u t equal distinct other) x, check_of_same u t equal x⟩

end Descriptor

end GraphQuery
