import GraphQuery.Json.Distinct
import GraphQuery.Proofs.Descriptor.Declared
import GraphQuery.Proofs.Descriptor.Failure
import GraphQuery.Proofs.Descriptor.Present
import GraphQuery.Proofs.Query.Document
import GraphQuery.Query.Partial

/-!
# Checking partial documents
-/

namespace GraphQuery

/-- A name without a dot is a path of one part. -/
theorem Name.parts_of_plain {name : String} (plain : '.' ∉ name.toList) : parts name = [name] := by
  have single : ∀ cs : List Char, '.' ∉ cs → Text.pieces '.' cs = [cs] := by
    intro cs plain
    induction cs with
    | nil => rfl
    | cons c rest ih =>
        rw [List.mem_cons, not_or] at plain
        rw [Text.pieces, if_neg (Ne.symm plain.1), ih plain.2]
  rw [parts, Text.split, single _ plain, List.map_singleton, String.ofList_toList]

namespace Document

open Descriptor

variable {row : Descriptor} {fields inner : List (String × Descriptor)} {name : String} {v : Json}
  {e : TypeError}

/-! ## One key -/

/-- The shape under a key asks for an object, and the value is one. -/
def Merges (row : Descriptor) (name : String) (v : Json) : Prop :=
  ∃ inner entries, (row.get (.field name)).present = .object inner ∧ v = .object entries

/-- Under a key that asks for an object an object is checked as a document. -/
theorem checkEntries_inside {entries : List (String × Json)}
    (declared : (row.get (.field name)).present = .object inner) :
    checkEntries row [(name, .object entries)] =
      (checkPartial (.object inner) (.object entries)).mapError (TypeError.under (.field name)) := by
  rw [checkEntries.eq_def, checkPartial]
  simp only [declared]
  cases checkEntries (.object inner) entries with
  | error e => rfl
  | ok _ => exact checkEntries_nil row

/-- Any other value is assigned to the key as to a path. -/
theorem checkEntries_whole (whole : ¬ Merges row name v) :
    checkEntries row [(name, v)] = checkAssignment row name v := by
  rw [checkEntries]
  · rw [checkEntries_nil]
    cases checkAssignment row name v <;> rfl
  · rintro inner entries declared rfl
    exact whole ⟨inner, entries, declared, rfl⟩

/-- A name without a dot is the path of the field that it names. -/
theorem atPath_of_plain (plain : '.' ∉ name.toList) :
    (Descriptor.object fields).atPath name = (fields.lookup name).getD .absent := by
  rw [Descriptor.atPath, Name.parts_of_plain plain]
  rfl

theorem checkAssignment_verbatim (plain : '.' ∉ name.toList) :
    checkAssignment (.object fields) name v = .ok () ↔
      ∀ t, fields.lookup name = some t → t = .absent ∨ t.validate v = true := by
  rw [checkAssignment_iff, atPath_of_plain plain]
  cases fields.lookup name with
  | none => simp
  | some t => simp

/-- What is whole is partial. -/
theorem Partial.of_validate (dictionary : v.distinct = true)
    (whole : (Descriptor.object fields).validate v = true) : Partial fields v := by
  cases v with
  | object entries =>
      obtain ⟨distinct, _⟩ := Json.distinct_object.mp dictionary
      rw [validate, check, checkFields_iff] at whole
      refine .document ?_
      intro name v member
      cases declared : fields.lookup name with
      | none => exact .undeclared v declared
      | some t =>
          have accepted := whole name t (Fields.mem_of_lookup declared)
          rw [distinct.lookup member] at accepted
          exact .whole declared accepted
  | _ => cases whole

theorem present_get_object (declared : ((Descriptor.object fields).get (.field name)).present =
    .object inner) : ∃ t, fields.lookup name = some t ∧ t.present = .object inner := by
  rw [Descriptor.get] at declared
  cases found : fields.lookup name with
  | none =>
      rw [found] at declared
      cases declared
  | some t =>
      rw [found] at declared
      exact ⟨t, rfl, declared⟩

/-- Under an object's key an object has to be partial itself. What is whole is partial as well. -/
theorem partialAt_iff_partial {t : Descriptor} (found : fields.lookup name = some t)
    (shape : t.present = .object inner) (dictionary : v.distinct = true) :
    PartialAt fields name v ↔ Partial inner v := by
  refine ⟨?_, .inside found shape⟩
  intro accepted
  cases accepted with
  | undeclared _ missing =>
      rw [found] at missing
      cases missing
  | inside found' shape' isPartial =>
      cases found.symm.trans found'
      cases shape.symm.trans shape'
      exact isPartial
  | whole found' whole =>
      cases found.symm.trans found'
      rw [validate, ← check_present, shape] at whole
      exact .of_validate dictionary whole

/-- Any other value has to be whole. -/
theorem partialAt_iff_validate (whole : ¬ Merges (.object fields) name v) :
    PartialAt fields name v ↔ ∀ t, fields.lookup name = some t → t.validate v = true := by
  refine ⟨?_, ?_⟩
  · intro accepted t found
    cases accepted with
    | undeclared _ missing =>
        rw [found] at missing
        cases missing
    | @inside _ inner _ _ _ found' shape isPartial =>
        -- Only objects are partial, and then the value would be checked as a document.
        cases isPartial with
        | document _ =>
            have declared : ((Descriptor.object fields).get (.field name)).present = .object inner := by
              rw [Descriptor.get, found']
              exact shape
            exact absurd ⟨inner, _, declared, rfl⟩ whole
    | whole found' whole =>
        cases found.symm.trans found'
        exact whole
  · intro fits
    cases found : fields.lookup name with
    | none => exact .undeclared v found
    | some t => exact .whole found (fits t found)

/-- A key that is read as it stands passes when its value may stand under it, provided that this is so
of the document that the value may be. -/
theorem checkEntries_iff_partialAt (dictionary : v.distinct = true) (plain : '.' ∉ name.toList)
    (given : fields.lookup name ≠ some .absent)
    (document : ∀ t inner, fields.lookup name = some t → t.present = .object inner →
      (checkPartial (.object inner) v = .ok () ↔ Partial inner v)) :
    checkEntries (.object fields) [(name, v)] = .ok () ↔ PartialAt fields name v := by
  by_cases merges : Merges (.object fields) name v
  · obtain ⟨inner, entries, declared, rfl⟩ := merges
    obtain ⟨t, found, shape⟩ := present_get_object declared
    rw [checkEntries_inside declared, Outcome.mapError_eq_ok, document t inner found shape,
      partialAt_iff_partial found shape dictionary]
  · rw [checkEntries_whole merges, checkAssignment_verbatim plain, partialAt_iff_validate merges]
    refine forall_congr' fun t => forall_congr' fun found => ?_
    have declared : t ≠ .absent := by
      rintro rfl
      exact given found
    exact or_iff_right declared

/-! ## Whole documents -/

mutual

/-- Where keys are read as they stand, a document passes when it is partial. -/
theorem checkPartial_iff (v : Json) {fields : List (String × Descriptor)}
    (dictionary : v.distinct = true) (verbatim : Verbatim fields v) :
    checkPartial (.object fields) v = .ok () ↔ Partial fields v := by
  cases v with
  | object entries =>
      obtain ⟨distinct, parts⟩ := Json.distinct_object.mp dictionary
      cases verbatim with
      | scalar _ plain => cases plain
      | document keys inside =>
          rw [checkPartial, checkEntries_iff_each entries parts keys inside]
          refine ⟨.document, ?_⟩
          rintro ⟨each⟩
          exact each
  | _ =>
      refine ⟨?_, ?_⟩
      · intro passed
        cases passed
      · rintro ⟨⟩
termination_by structural v

theorem checkEntries_iff_each (entries : List (String × Json)) {fields : List (String × Descriptor)}
    (dictionary : ∀ name v, (name, v) ∈ entries → v.distinct = true)
    (keys : ∀ name v, (name, v) ∈ entries →
      '.' ∉ name.toList ∧ fields.lookup name ≠ some .absent)
    (inside : ∀ name v t inner, (name, v) ∈ entries → fields.lookup name = some t →
      t.present = .object inner → Verbatim inner v) :
    checkEntries (.object fields) entries = .ok () ↔
      ∀ name v, (name, v) ∈ entries → PartialAt fields name v := by
  match entries with
  | [] => simp [checkEntries_nil]
  | (name, v) :: rest =>
      rw [Fields.forall_mem_cons] at dictionary keys
      have here : checkEntries (.object fields) [(name, v)] = .ok () ↔ PartialAt fields name v := by
        refine checkEntries_iff_partialAt dictionary.1 keys.1.1 keys.1.2 ?_
        intro t inner found shape
        exact checkPartial_iff v dictionary.1 (inside name v t inner List.mem_cons_self found shape)
      have behind := checkEntries_iff_each rest dictionary.2 keys.2
        fun name v t inner member => inside name v t inner (List.mem_cons_of_mem _ member)
      rw [checkEntries_cons, Fields.forall_mem_cons, here, behind]
termination_by structural entries

end

/-! ## Errors -/

/-- An error of one entry blames its value, or a part of the document that the value is. -/
theorem blamesAt_of_checkEntry (distinct : row.Distinct)
    (document : ∀ inner e', (row.get (.field name)).present = .object inner →
      checkPartial (.object inner) v = .error e' → Blames (.object inner) v e')
    (failed : checkEntries row [(name, v)] = .error e) :
    ∃ e', e = e'.under (.field name) ∧ BlamesAt row name v e' := by
  by_cases merges : Merges row name v
  · obtain ⟨inner, entries, declared, rfl⟩ := merges
    rw [checkEntries_inside declared, Outcome.mapError_eq_error] at failed
    obtain ⟨e', failed, rfl⟩ := failed
    exact ⟨e', rfl, .inside declared (document inner e' declared failed)⟩
  · rw [checkEntries_whole merges] at failed
    obtain ⟨e', stopped, rfl⟩ := parse_of_checkAssignment failed
    obtain ⟨s, fails⟩ := failsAt_of_parse _ (distinct.atParts (Name.parts name)) stopped
    exact ⟨e', rfl, .whole fails⟩

mutual

/-- An error of a document blames a part of it. -/
theorem blames_of_checkPartial (v : Json) {row : Descriptor} {e : TypeError}
    (distinct : row.Distinct) (dictionary : v.distinct = true)
    (failed : checkPartial row v = .error e) : Blames row v e := by
  cases v with
  | object entries =>
      obtain ⟨once, parts⟩ := Json.distinct_object.mp dictionary
      rw [checkPartial] at failed
      obtain ⟨name, v, e, member, rfl, blamed⟩ :=
        blamesAt_of_checkEntries entries distinct parts failed
      exact .key (once.lookup member) blamed
  | _ =>
      cases failed
      exact .document row rfl
termination_by structural v

theorem blamesAt_of_checkEntries (entries : List (String × Json)) {row : Descriptor} {e : TypeError}
    (distinct : row.Distinct) (dictionary : ∀ name v, (name, v) ∈ entries → v.distinct = true)
    (failed : checkEntries row entries = .error e) :
    ∃ name v e', (name, v) ∈ entries ∧ e = e'.under (.field name) ∧ BlamesAt row name v e' := by
  match entries with
  | [] =>
      rw [checkEntries_nil] at failed
      cases failed
  | (name, v) :: rest =>
      rw [Fields.forall_mem_cons] at dictionary
      rw [checkEntries_cons_eq] at failed
      cases first : checkEntries row [(name, v)] with
      | ok _ =>
          rw [first] at failed
          obtain ⟨name, v, e', member, same, blamed⟩ :=
            blamesAt_of_checkEntries rest distinct dictionary.2 failed
          exact ⟨name, v, e', List.mem_cons_of_mem _ member, same, blamed⟩
      | error e' =>
          rw [first] at failed
          cases failed
          have document : ∀ inner e', (row.get (.field name)).present = .object inner →
              checkPartial (.object inner) v = .error e' → Blames (.object inner) v e' := by
            intro inner e' declared failed
            refine blames_of_checkPartial v ?_ dictionary.1 failed
            rw [← declared]
            exact (Descriptor.Distinct.get distinct (.field name)).present
          obtain ⟨e', rfl, blamed⟩ := blamesAt_of_checkEntry distinct document first
          exact ⟨name, v, e', List.mem_cons_self, rfl, blamed⟩
termination_by structural entries

end

mutual

/-- The path of an error leads to the value that it reports. -/
theorem Blames.value {row : Descriptor} {v : Json} {e : TypeError} :
    Blames row v e → Json.along (some v) e.path = some e.value
  | .document _ _ => rfl
  | .key found blames => by
      rw [TypeError.under, Json.along, Json.part, found, Option.bind_some]
      exact blames.value

theorem BlamesAt.value {row : Descriptor} {name : String} {v : Json} {e : TypeError} :
    BlamesAt row name v e → Json.along (some v) e.path = some e.value
  | .inside _ blames => blames.value
  | .whole fails => fails.value

end

end Document

open Document

section

/-- **Partial documents.** Where every key is read as it stands, exactly the partial documents are
accepted. An error of any document blames a part of it, and its path leads there. -/
theorem partial_documents_accepted {fields : List (String × Descriptor)} {v : Json}
    (distinct : (Descriptor.object fields).Distinct) (dictionary : v.distinct = true) :
    (Verbatim fields v → (checkPartial (.object fields) v = .ok () ↔ Partial fields v)) ∧
    ∀ e, checkPartial (.object fields) v = .error e →
      Blames (.object fields) v e ∧ Json.along (some v) e.path = some e.value := by
  refine ⟨checkPartial_iff v dictionary, ?_⟩
  intro e failed
  have blames := blames_of_checkPartial v distinct dictionary failed
  exact ⟨blames, blames.value⟩

end

namespace Parcel

/-- A parcel has a box, perhaps, with a width. -/
def fields : List (String × Descriptor) :=
  [("box", .option (.object [("width", .string)]))]

/-- The box is given a width and a colour, which is not declared. -/
def boxed : Json := .object [("box", .object [("width", .string "w"), ("color", .int 5)])]

/-- The width is no text. -/
def broken : Json := .object [("box", .object [("width", .int 5)])]

/-- The key is no field of a parcel, but it reads as the path of one. -/
def dotted : Json := .object [("box.width", .int 5)]

theorem verbatim_boxed : Verbatim fields boxed := by
  refine .document ?_ ?_
  · intro name v member
    cases List.mem_singleton.mp member
    exact ⟨by decide, nofun⟩
  · intro name v t inner member declared shape
    cases List.mem_singleton.mp member
    cases declared
    cases shape
    refine .document ?_ ?_
    · intro name v member
      rcases List.mem_pair.mp member with same | same <;> cases same <;> exact ⟨by decide, nofun⟩
    · intro name v t inner member declared shape
      rcases List.mem_pair.mp member with same | same <;> cases same <;> cases declared
      cases shape

theorem partial_boxed : Partial fields boxed := by
  refine .document ?_
  intro name v member
  cases List.mem_singleton.mp member
  refine .inside rfl rfl (.document ?_)
  intro name v member
  rcases List.mem_pair.mp member with same | same <;> cases same
  · exact .whole rfl rfl
  · exact .undeclared _ rfl

theorem broken_refused : checkPartial (.object fields) broken =
    .error ⟨.string, .one "string", some (.int 5), [.field "box", .field "width"]⟩ := by
  have width : checkAssignment (.object [("width", .string)]) "width" (.int 5) =
      .error ⟨.string, .one "string", some (.int 5), [.field "width"]⟩ := by
    rw [checkAssignment, atPath_of_plain (by decide)]
    rfl
  have inside : checkEntries (.object [("width", .string)]) [("width", .int 5)] =
      .error ⟨.string, .one "string", some (.int 5), [.field "width"]⟩ := by
    rw [checkEntries_whole (by rintro ⟨_, _, declared, _⟩; cases declared), width]
  rw [broken, checkPartial, checkEntries_inside rfl, checkPartial, inside]
  rfl

end Parcel

/-- A parcel may be merged with a width and with anything that is not declared. Another width is
blamed where it stands. -/
theorem Parcel.partial_documents_accepted_box :
    (Descriptor.object fields).Distinct ∧ boxed.distinct = true ∧ Verbatim fields boxed ∧
      checkPartial (.object fields) boxed = .ok () ∧
      Blames (.object fields) broken
        ⟨.string, .one "string", some (.int 5), [.field "box", .field "width"]⟩ := by
  have distinct : (Descriptor.object fields).Distinct := by decide
  refine ⟨distinct, rfl, verbatim_boxed, ?_, ?_⟩
  · exact ((partial_documents_accepted distinct rfl).1 verbatim_boxed).mpr partial_boxed
  · exact ((partial_documents_accepted distinct rfl).2 _ broken_refused).1

/-- A key that is no field of a parcel is refused a value, being read as a path. -/
theorem Parcel.dotted_refused :
    Partial fields dotted ∧ checkPartial (.object fields) dotted =
      .error ⟨.string, .one "string", some (.int 5), [.field "box.width"]⟩ := by
  refine ⟨.document ?_, ?_⟩
  · intro name v member
    cases List.mem_singleton.mp member
    exact .undeclared _ rfl
  · have found : (Descriptor.object fields).atPath "box.width" = .option .string := by
      rw [Descriptor.atPath, show Name.parts "box.width" = ["box", "width"] by decide]
      rfl
    rw [dotted, checkPartial, checkEntries_whole (by rintro ⟨_, _, declared, _⟩; cases declared),
      checkAssignment, found]
    rfl

end GraphQuery
