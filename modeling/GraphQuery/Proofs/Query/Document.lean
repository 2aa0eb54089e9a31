import GraphQuery.Proofs.Descriptor.Restriction
import GraphQuery.Query.Pending

/-!
# Checked documents put together

Every document is checked on its own, and under a common key the later one wins. What comes out would
be accepted as a whole: under every key stands a value that was checked for that key, and a declared
key is missing only where it was missing from all documents, so it may be.
-/

namespace GraphQuery

open Descriptor (Restricted)
open Outcome

namespace Document

/-! ## Whole documents -/

/-- Entries that are kept for the fields of a shape, by one document or by several. -/
structure Kept (fields : List (String × Descriptor)) (entries : List (String × Json)) : Prop where
  distinct : Fields.Distinct entries
  declared : ∀ name w, entries.lookup name = some w →
    ∃ t v, fields.lookup name = some t ∧ Restricted t v w
  missing : ∀ name t, fields.lookup name = some t → entries.lookup name = none →
    t.acceptsAbsent = true

section Kept

variable {fields : List (String × Descriptor)} {entries later : List (String × Json)}

theorem kept_of_parse (distinct : Fields.Distinct fields) {document parsed : Json}
    (parses : (Descriptor.object fields).parse document = .ok parsed) :
    ∃ entries, parsed = .object entries ∧ Kept fields entries := by
  cases Descriptor.restricted_of_parse _ parses with
  | scalar accepted => cases accepted
  | @object _ given entries names missing present =>
      refine ⟨entries, rfl, ?_, ?_, ?_⟩
      · rw [Fields.Distinct, names]
        exact List.Nodup.filter _ distinct
      · intro name w result
        obtain ⟨⟨t, declared⟩, v, there⟩ := Descriptor.lookup_of_kept names result
        exact ⟨t, v, declared, present name t v w declared there result⟩
      · intro name t declared result
        have member : name ∈ Fields.names fields :=
          List.mem_map_of_mem (Fields.mem_of_lookup declared)
        exact missing name t declared (Descriptor.lookup_of_not_kept names member result)

theorem Kept.extend (kept : Kept fields entries) (keptLater : Kept fields later) :
    Kept fields (Fields.extend entries later) where
  distinct := kept.distinct.extend later
  declared name w result := by
    cases there : later.lookup name with
    | none =>
        rw [Fields.lookup_extend_of_none there] at result
        exact kept.declared name w result
    | some found =>
        rw [Fields.lookup_extend_of_some keptLater.distinct there] at result
        cases result
        exact keptLater.declared name w there
  missing name t declared result := by
    cases there : later.lookup name with
    | none => exact keptLater.missing name t declared there
    | some w =>
        rw [Fields.lookup_extend_of_some keptLater.distinct there] at result
        cases result

theorem Kept.validate (kept : Kept fields entries) (distinct : (Descriptor.object fields).Distinct) :
    (Descriptor.object fields).validate (.object entries) = true := by
  rw [Descriptor.validate, Descriptor.check, Descriptor.checkFields_iff]
  intro name t member
  have here := (distinct fields .self).lookup member
  cases result : entries.lookup name with
  | none =>
      rw [Descriptor.check_none]
      exact kept.missing name t here result
  | some w =>
      obtain ⟨t', v, declared, restricted⟩ := kept.declared name w result
      cases here.symm.trans declared
      exact restricted.check (distinct.of_occurs (.field member .self))

theorem Kept.whole (kept : Kept fields entries) (distinct : (Descriptor.object fields).Distinct) :
    Whole (.object fields) (.object entries) where
  valid := kept.validate distinct
  accepted := by
    rw [Descriptor.isOk_parse]
    exact kept.validate distinct
  declared := ⟨fields, entries, rfl, rfl, kept.distinct,
    fun name w member => kept.declared name w (kept.distinct.lookup member)⟩

theorem kept_of_whole {document : Json}
    (whole : Whole (.object fields) document) :
    ∃ entries, document = .object entries ∧ Kept fields entries := by
  obtain ⟨_, entries, ⟨⟩, rfl, once, declared⟩ := whole.declared
  refine ⟨entries, rfl, once, fun name w result => declared name w (Fields.mem_of_lookup result), ?_⟩
  intro name t here result
  have valid := whole.valid
  rw [Descriptor.validate, Descriptor.check, Descriptor.checkFields_iff] at valid
  have absent := valid name t (Fields.mem_of_lookup here)
  rwa [result, Descriptor.check_none] at absent

end Kept

section Whole

variable {input : Descriptor} {fields : List (String × Descriptor)} {a b : Json}

theorem whole_of_parse (distinct : (Descriptor.object fields).Distinct) {document : Json}
    (parses : (Descriptor.object fields).parse document = .ok a) : Whole (.object fields) a := by
  obtain ⟨entries, rfl, kept⟩ := kept_of_parse (distinct fields .self) parses
  exact kept.whole distinct

/-- Whole documents put together are a whole document. -/
theorem Whole.merge (distinct : input.Distinct) (first : Whole input a) (second : Whole input b) :
    Whole input (Document.merge a b) := by
  obtain ⟨fields, _, rfl, _⟩ := first.declared
  obtain ⟨entries, rfl, kept⟩ := kept_of_whole first
  obtain ⟨later, rfl, keptLater⟩ := kept_of_whole second
  exact (kept.extend keptLater).whole distinct

end Whole

/-! ## Assignments -/

section Assignment

variable {row : Descriptor} {path : String} {v : Json}

/-- A value may be assigned where nothing is declared or where it has the declared shape. -/
theorem checkAssignment_iff : checkAssignment row path v = .ok () ↔
    row.atPath path = .absent ∨ (row.atPath path).validate v = true := by
  rw [Descriptor.validate, ← Descriptor.isOk_parse]
  unfold checkAssignment
  split
  · next nothing => simp [nothing]
  · next something =>
      have declared : row.atPath path ≠ .absent := something
      cases (row.atPath path).parse v <;> simp [declared]

/-- Where a shape is declared, a value is parsed against it, and an error names the path. -/
theorem checkAssignment_of_ne (declared : row.atPath path ≠ .absent) :
    checkAssignment row path v =
      (((row.atPath path).parse v).map fun _ => ()).mapError (TypeError.under (.field path)) := by
  unfold checkAssignment
  split
  · next nothing => exact absurd nothing declared
  · cases (row.atPath path).parse v <;> rfl

theorem parse_of_checkAssignment {e : TypeError} (failed : checkAssignment row path v = .error e) :
    ∃ e', (row.atPath path).parse v = .error e' ∧ e = e'.under (.field path) := by
  unfold checkAssignment at failed
  split at failed
  · cases failed
  · split at failed
    · cases failed
    · next e' stopped =>
        cases failed
        exact ⟨e', stopped, rfl⟩

end Assignment

/-! ## Partial documents -/

section Partial

variable {row : Descriptor} {name : String} {v : Json} {fields : List (String × Descriptor)}
  {entries rest later : List (String × Json)}

/-- Only objects can be merged. -/
theorem object_of_checkPartial (checked : checkPartial row v = .ok ()) :
    ∃ entries, v = .object entries := by
  cases v with
  | object entries => exact ⟨entries, rfl⟩
  | _ => cases checked

theorem checkEntries_nil (row : Descriptor) : checkEntries row [] = .ok () := by
  rw [checkEntries]

/-- An object under an object's key is partial itself. -/
theorem checkEntries_object (declared : (row.get (.field name)).present = .object fields)
    (inside : checkEntries (.object fields) entries = .ok ())
    (behind : checkEntries row rest = .ok ()) :
    checkEntries row ((name, .object entries) :: rest) = .ok () := by
  rw [checkEntries.eq_def]
  simp only [declared, inside, behind]

/-- Any other value is whole. -/
theorem checkEntries_plain (plain : v.isObject = false) (fits : checkAssignment row name v = .ok ())
    (behind : checkEntries row rest = .ok ()) :
    checkEntries row ((name, v) :: rest) = .ok () := by
  rw [checkEntries]
  · rw [fits]
    exact behind
  · rintro fields entries _ rfl
    cases plain

/-- An entry is checked without those behind it, and in front of them. -/
theorem checkEntries_cons_eq (row : Descriptor) (name : String) (v : Json)
    (rest : List (String × Json)) : checkEntries row ((name, v) :: rest) =
      (checkEntries row [(name, v)]).bind fun _ => checkEntries row rest := by
  rw [checkEntries.eq_def row (_ :: _), checkEntries.eq_def row [_]]
  dsimp only
  split
  · split
    · rfl
    · rw [checkEntries_nil]
      rfl
  · split
    · rfl
    · rw [checkEntries_nil]
      rfl

theorem checkEntries_cons : checkEntries row ((name, v) :: rest) = .ok () ↔
    checkEntries row [(name, v)] = .ok () ∧ checkEntries row rest = .ok () := by
  rw [checkEntries_cons_eq]
  cases checkEntries row [(name, v)] with
  | error e => simp [Except.bind]
  | ok _ => simp [Except.bind]

theorem checkEntries_iff : checkEntries row entries = .ok () ↔
    ∀ name v, (name, v) ∈ entries → checkEntries row [(name, v)] = .ok () := by
  induction entries with
  | nil => simp [checkEntries_nil]
  | cons entry rest ih =>
      obtain ⟨name, v⟩ := entry
      rw [checkEntries_cons, ih]
      exact (Fields.forall_mem_cons (p := fun name v => checkEntries row [(name, v)] = .ok ())).symm

/-- Rows that agree in what may be under each key check partial documents alike. -/
theorem checkPartial_congr {other : Descriptor}
    (inside : ∀ name, (row.get (.field name)).present = (other.get (.field name)).present)
    (plain : ∀ name v, checkAssignment row name v = checkAssignment other name v) (v : Json) :
    checkPartial row v = checkPartial other v := by
  cases v with
  | object entries =>
      rw [checkPartial, checkPartial]
      induction entries with
      | nil => rw [checkEntries_nil, checkEntries_nil]
      | cons entry rest ih =>
          rw [checkEntries.eq_def row, checkEntries.eq_def other]
          simp only [inside, plain, ih]
  | _ => rfl

/-- Partial documents put together are a partial document. -/
theorem checkPartial_merge {a b : Json} (first : checkPartial row a = .ok ())
    (second : checkPartial row b = .ok ()) : checkPartial row (merge a b) = .ok () := by
  obtain ⟨entries, rfl⟩ := object_of_checkPartial first
  obtain ⟨later, rfl⟩ := object_of_checkPartial second
  rw [checkPartial, checkEntries_iff] at first second
  rw [merge, checkPartial, checkEntries_iff]
  intro name v member
  rcases Fields.mem_extend member with there | there
  · exact first name v there
  · exact second name v there

end Partial

end Document

end GraphQuery
