import GraphQuery.Operation.Table
import GraphQuery.Proofs.Descriptor.Present
import GraphQuery.Proofs.Descriptor.Projection

/-!
# The shapes of results made of elements

A descriptor has the methods of arrays when all that it offers, null and absence aside, are arrays. The
shape of an element is read off it only where one array shape is all that it offers. There the results of
`first` and the like accept every element and absence, and those of `reverse` and the like every array of
elements. Where a choice is left, be it null, the shape of an element is absence, which no element has.
-/

namespace GraphQuery.Descriptor

variable {t : Descriptor} {xs : List Json}

/-- A method of arrays is found before any operation on all values. -/
theorem method?_of_array {name : String} {op : Operation} (family : t.family? = some .array)
    (listed : (Operation.ofArrays.find? fun op => op.name == name) = some op) :
    t.method? name = some op := by
  have own : t.familyOperations = Operation.ofArrays := by rw [familyOperations, family]; rfl
  rw [method?, own, listed]
  rfl

/-- An element has the shape of elements exactly when there is one array shape. -/
theorem validate_element (family : t.family? = some .array)
    (accepted : t.validate (.array xs) = true) {x : Json} (member : x ∈ xs) :
    t.element.validate x = t.present.offersNoChoice := by
  rw [validate, ← check_present] at accepted
  rw [family?] at family
  rw [element, validate]
  cases shape : t.present with
  | list item =>
      rw [shape, check, List.all_eq_true] at accepted
      exact accepted x member
  | tuple items =>
      rw [shape, check, checkItems_iff] at accepted
      obtain ⟨lengths, each⟩ := accepted
      obtain ⟨i, atInput⟩ := List.mem_iff_getElem?.mp member
      obtain ⟨u, declared⟩ := getElem?_of_length_eq lengths.symm atInput
      have position : (unionOf items).check (some x) = true :=
        (check_unionOf items (some x)).mpr ⟨u, List.mem_of_getElem? declared, each i u x declared atInput⟩
      exact position
  | union alts => rfl
  | literal value => cases value <;> simp [shape, plainFamily?] at family
  | _ => simp [shape, plainFamily?] at family

/-- A result that is an element or absent accepts what an element may be. -/
theorem validate_maybeElement (t : Descriptor) (x : Json) :
    (ResultShape.maybeElement.descriptor t).validate x = t.element.validate x := by
  rw [Bool.eq_iff_iff, validate, ResultShape.descriptor, check_unionOf]
  simp [validate, check]

theorem check_maybeElement_none (t : Descriptor) :
    (ResultShape.maybeElement.descriptor t).check none = true := by
  rw [ResultShape.descriptor, check_unionOf]
  exact ⟨absent, by simp, rfl⟩

theorem validate_elements (t : Descriptor) (ys : List Json) :
    (ResultShape.elements.descriptor t).validate (.array ys) = ys.all t.element.validate := rfl

/-- **Array methods.** On a receiver with the methods of arrays, what picks an element may come out absent,
and accepts the elements of all arrays that the receiver accepts, and what rearranges elements accepts
all arrays of them, exactly when the receiver offers one array shape, or the array is empty. -/
theorem array_methods_accept_elements (family : t.family? = some .array)
    (accepted : t.validate (.array xs) = true) :
    (∀ name ∈ ["first", "last", "min", "max", "at"], ∃ op, t.method? name = some op ∧
      (op.output t).check none = true ∧
      ((∀ x ∈ xs, (op.output t).validate x = true) ↔
        xs = [] ∨ t.present.offersNoChoice = true)) ∧
    ∀ name ∈ ["reverse", "sort", "distinct"], ∃ op, t.method? name = some op ∧
      ((∀ ys, ys ⊆ xs → (op.output t).validate (.array ys) = true) ↔
        xs = [] ∨ t.present.offersNoChoice = true) := by
  have every : (∀ x ∈ xs, t.element.validate x = true) ↔
      xs = [] ∨ t.present.offersNoChoice = true := by
    constructor
    · intro all
      rcases xs with _ | ⟨x, rest⟩
      · exact .inl rfl
      · have first := all x List.mem_cons_self
        rw [validate_element family accepted List.mem_cons_self] at first
        exact .inr first
    · rintro (rfl | single) x member
      · cases member
      · rwa [validate_element family accepted member]
  constructor
  · intro name named
    obtain ⟨op, listed, result⟩ : ∃ op,
        (Operation.ofArrays.find? fun op => op.name == name) = some op ∧
          op.result = .maybeElement := by
      simp only [List.mem_cons, List.not_mem_nil, or_false] at named
      rcases named with rfl | rfl | rfl | rfl | rfl <;> exact ⟨_, rfl, rfl⟩
    refine ⟨op, method?_of_array family listed, ?_, ?_⟩
    · rw [Operation.output, result]
      exact check_maybeElement_none t
    · simp only [Operation.output, result, validate_maybeElement]
      exact every
  · intro name named
    obtain ⟨op, listed, result⟩ : ∃ op,
        (Operation.ofArrays.find? fun op => op.name == name) = some op ∧ op.result = .elements := by
      simp only [List.mem_cons, List.not_mem_nil, or_false] at named
      rcases named with rfl | rfl | rfl <;> exact ⟨_, rfl, rfl⟩
    refine ⟨op, method?_of_array family listed, ?_⟩
    simp only [Operation.output, result, validate_elements, List.all_eq_true]
    rw [← every]
    constructor
    · intro all x member
      exact all [x] (by simpa using member) x List.mem_cons_self
    · intro all ys within y member
      exact all y (within member)

namespace Tags

/-- A pair of a name and a number, or nothing. -/
def pair : Descriptor := .union [.option (.tuple [.string, .number]), .absent]

/-- Some names, or null. -/
def namesOrNull : Descriptor := .union [.list .string, .null]

end Tags

/-- The parts of a pair are what its methods say. -/
theorem array_methods_of_pair :
    Tags.pair.family? = some .array ∧
      Tags.pair.validate (.array [.string "a", .int 1]) = true ∧
      ∃ first reverse, Tags.pair.method? "first" = some first ∧
        Tags.pair.method? "reverse" = some reverse ∧
        (∀ x ∈ [Json.string "a", .int 1], (first.output Tags.pair).validate x = true) ∧
        (reverse.output Tags.pair).validate (.array [.int 1, .string "a"]) = true := by
  have family : Tags.pair.family? = some .array := rfl
  have accepted : Tags.pair.validate (.array [.string "a", .int 1]) = true := rfl
  have single : Tags.pair.present.offersNoChoice = true := rfl
  obtain ⟨picks, rearranges⟩ := array_methods_accept_elements family accepted
  obtain ⟨first, found, -, elements⟩ := picks "first" (by decide)
  obtain ⟨reverse, found', arrays⟩ := rearranges "reverse" (by decide)
  refine ⟨family, accepted, first, reverse, found, found', elements.mpr (.inr single), ?_⟩
  exact arrays.mpr (.inr single) _ (by simp)

/-- Names or null have the methods of arrays, and the first name is refused. As an item it is
accepted. -/
theorem Tags.first_name_refused :
    namesOrNull.family? = some .array ∧ namesOrNull.validate (.array [.string "a"]) = true ∧
      (∃ op, namesOrNull.method? "first" = some op ∧
        (op.output namesOrNull).validate (.string "a") = false) ∧
      (namesOrNull.get (.index 0)).validate (.string "a") = true :=
  ⟨rfl, rfl, ⟨_, rfl, rfl⟩, rfl⟩

end GraphQuery.Descriptor
