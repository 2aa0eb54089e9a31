import GraphQuery.Proofs.Descriptor.Parts
import GraphQuery.Proofs.Schema.RowShape

/-!
# Rows and documents for new rows

A document for a new row may leave out the keys that the server fills in, and differs from a row in nothing
else: what it has under any key is what a row has there. So it is a row as soon as these keys are there, and
is parsed as a new row to what it is parsed to as a row.
-/

namespace GraphQuery

open Outcome

namespace Fields

variable {α : Type} {fields others more : List (String × α)} {name : String}

/-- The entries of a dictionary are the same wherever it is inserted. -/
theorem lookup_extend_congr (declared : name ∈ names more) :
    (extend fields more).lookup name = (extend others more).lookup name := by
  induction more generalizing fields others with
  | nil => cases declared
  | cons entry rest ih =>
      by_cases again : name ∈ names rest
      · exact ih again
      · -- Nothing behind the entry sets the name again.
        rw [names_cons, List.mem_cons, or_iff_left again] at declared
        subst declared
        have missing : rest.lookup entry.1 = none := lookup_eq_none.mpr again
        have last (before : List (String × α)) :
            (extend before (entry :: rest)).lookup entry.1 = some entry.2 := by
          show (extend (insert before entry.1 entry.2) rest).lookup entry.1 = some entry.2
          rw [lookup_extend_of_none missing, lookup_insert_self]
        rw [last, last]

theorem names_extend_congr (same : names fields = names others) :
    names (extend fields more) = names (extend others more) := by
  induction more generalizing fields others with
  | nil => exact same
  | cons entry rest ih =>
      refine ih ?_
      rw [names_insert, names_insert, same]

end Fields

namespace Descriptor

variable {t : Descriptor} {x : Option Json} {slot : Option Json}

/-! ## Slots -/

theorem parse_optional (t : Descriptor) (v : Json) : t.optional.parse v = t.parse v := by
  unfold optional
  split
  · rfl
  · rw [parse]

/-- What a shape takes it takes as well when it may be absent. -/
theorem parseSlot_optional (parsed : t.parseSlot x = .ok slot) :
    t.optional.parseSlot x = .ok slot := by
  cases x with
  | none =>
      rw [parseSlot] at parsed
      split at parsed
      · rw [parseSlot, if_pos (acceptsAbsent_optional t)]
        exact parsed
      · cases parsed
  | some v =>
      rw [parseSlot, parse_optional]
      exact parsed

/-- Objects of the same names parse alike if they take the same under each name. -/
theorem parseFields_of_lookup {fs gs : List (String × Descriptor)} {entries kept : List (String × Json)}
    (names : Fields.names fs = Fields.names gs) (distinct : Fields.Distinct fs)
    (each : ∀ name t u slot, fs.lookup name = some t → gs.lookup name = some u →
      t.parseSlot (entries.lookup name) = .ok slot → u.parseSlot (entries.lookup name) = .ok slot)
    (parsed : parseFields fs entries = .ok kept) : parseFields gs entries = .ok kept := by
  induction fs generalizing gs kept with
  | nil =>
      obtain rfl : gs = [] := List.map_eq_nil_iff.mp names.symm
      exact parsed
  | cons field rest ih =>
      obtain ⟨_, t⟩ := field
      obtain ⟨⟨name, u⟩, gs, rfl, rfl, behind⟩ := List.map_eq_cons_iff.mp names.symm
      obtain ⟨slot, others, here, done, rfl⟩ := parseFields_cons_eq_ok.mp parsed
      obtain ⟨fresh, distinct⟩ := List.nodup_cons.mp distinct
      have first := each _ t u slot List.lookup_cons_self List.lookup_cons_self here
      refine parseFields_cons_eq_ok.mpr ⟨slot, others, first, ?_, rfl⟩
      refine ih behind.symm distinct ?_ done
      intro other t' u' slot' found found'
      have there : other ∈ Fields.names rest := List.mem_map_of_mem (Fields.mem_of_lookup found)
      have apart : other ≠ name := by
        rintro rfl
        exact fresh there
      refine each other t' u' slot' ?_ ?_
      · rwa [Fields.lookup_cons_of_ne _ apart]
      · rwa [Fields.lookup_cons_of_ne _ apart]

end Descriptor

namespace Declaration

open Descriptor

/-- The server fills in the key: it is `id` or, in an edge, one of the ends, and no declared field takes its
place. -/
def Generates (d : Declaration) (key : String) : Prop :=
  (key = "id" ∨ d.edge?.isSome = true ∧ (key = "in" ∨ key = "out")) ∧ key ∉ Fields.names d.fields

/-- All keys that the server fills in are there already. -/
def FilledIn (d : Declaration) (v : Json) : Prop := ∀ key, d.Generates key → (v.get? key).isSome = true

/-- A document for a new row, key by key. A generated key that is not declared again has no say when it is
missing. -/
structure FitsNewRow (d : Declaration) (v : Json) : Prop where
  object : ∃ entries, v = .object entries
  declared : ∀ key t, (Fields.ofEntries d.fields).lookup key = some t → t.check (v.get? key) = true
  generated : ∀ key t x, (key, t) ∈ d.generatedKeys → key ∉ Fields.names d.fields →
    v.get? key = some x → t.check (some x) = true

variable {d : Declaration} {key : String} {t u : Descriptor} {v w : Json}

theorem mem_names_generatedKeys :
    key ∈ Fields.names d.generatedKeys ↔ key = "id" ∨ d.edge?.isSome = true ∧ (key = "in" ∨ key = "out") := by
  cases d with
  | table => simp [generatedKeys, edge?]
  | edge => simp [generatedKeys, edge?]

theorem acceptsAbsent_linkTo (tables : List String) : (linkTo tables).acceptsAbsent = false := by
  rw [Bool.eq_false_iff, ne_eq, linkTo, acceptsAbsent_unionOf]
  rintro ⟨link, member, missing⟩
  obtain ⟨table, _, rfl⟩ := List.mem_map.mp member
  cases missing

/-- A new document has the keys of a row. -/
theorem names_newKeys (d : Declaration) : Fields.names (Fields.extend d.optionalKeys d.fields) =
    Fields.names (Fields.extend d.generatedKeys d.fields) :=
  Fields.names_extend_congr d.names_optionalKeys

/-- What the server fills in is a reference. -/
theorem linkTo_of_generated (generated : (key, t) ∈ d.generatedKeys) : ∃ tables, t = linkTo tables := by
  cases d with
  | table decl =>
      cases List.mem_singleton.mp generated
      exact ⟨[decl.name], rfl⟩
  | edge e =>
      simp only [generatedKeys, List.mem_cons, Prod.mk.injEq, List.not_mem_nil, or_false] at generated
      obtain ⟨_, rfl⟩ | ⟨_, rfl⟩ | ⟨_, rfl⟩ := generated
      · exact ⟨[e.name], rfl⟩
      · exact ⟨e.sources, rfl⟩
      · exact ⟨e.targets, rfl⟩

/-- Under a key a row and a new document ask for the same, or the server fills the key in. -/
theorem lookup_inputType (row : (Fields.extend d.generatedKeys d.fields).lookup key = some t)
    (new : (Fields.extend d.optionalKeys d.fields).lookup key = some u) :
    ¬ d.Generates key ∧ u = t ∨ d.Generates key ∧ (∃ tables, t = linkTo tables) ∧ u = t.optional := by
  by_cases declared : key ∈ Fields.names d.fields
  · have same : (Fields.extend d.generatedKeys d.fields).lookup key =
        (Fields.extend d.optionalKeys d.fields).lookup key := Fields.lookup_extend_congr declared
    rw [same, new] at row
    cases row
    exact .inl ⟨fun generated => generated.2 declared, rfl⟩
  · have missing : d.fields.lookup key = none := Fields.lookup_eq_none.mpr declared
    rw [Fields.lookup_extend_of_none missing] at row new
    rw [optionalKeys, Fields.lookup_map, row] at new
    cases new
    have generated := Fields.mem_of_lookup row
    have filled : d.Generates key := ⟨mem_names_generatedKeys.mp (List.mem_map_of_mem generated), declared⟩
    exact .inr ⟨filled, linkTo_of_generated generated, rfl⟩

theorem mem_names_declared :
    key ∈ Fields.names (Fields.ofEntries d.fields) ↔ key ∈ Fields.names d.fields := by
  rw [Fields.ofEntries, Fields.mem_names_extend, Fields.names_nil]
  exact or_iff_right List.not_mem_nil

/-- A declared field is in a new document as it is declared. -/
theorem get_inputType_of_declared (found : (Fields.ofEntries d.fields).lookup key = some t) :
    d.inputType.get (.field key) = t := by
  have declared := mem_names_declared.mp (List.mem_map_of_mem (Fields.mem_of_lookup found))
  rw [inputType_eq]
  apply get_of_lookup
  rw [Fields.lookup_extend_congr declared]
  exact found

/-- The shape of a new document asks for nothing but this. -/
theorem validate_inputType_iff_fits : d.inputType.validate v = true ↔ d.FitsNewRow v := by
  cases v with
  | object entries =>
      rw [validate_inputType_iff]
      constructor
      · intro each
        refine ⟨⟨entries, rfl⟩, ?_, ?_⟩
        · intro key t found
          have declared := mem_names_declared.mp (List.mem_map_of_mem (Fields.mem_of_lookup found))
          have fits := each key (.inr declared)
          rwa [get_inputType_of_declared found] at fits
        · intro key t x generated fresh there
          have fits := each key (.inl (List.mem_map_of_mem generated))
          rw [get_inputType (d.distinct_generatedKeys.lookup generated) fresh] at fits
          exact check_optional_iff.mp fits x there
      · intro fits key member
        by_cases declared : key ∈ Fields.names d.fields
        · obtain ⟨t, found⟩ := Fields.lookup_of_mem_names (mem_names_declared.mpr declared)
          rw [get_inputType_of_declared found]
          exact fits.declared key t found
        · obtain ⟨t, generated⟩ := Fields.lookup_of_mem_names (member.resolve_right declared)
          rw [get_inputType generated declared]
          refine check_optional_iff.mpr ?_
          intro x there
          exact fits.generated key t x (Fields.mem_of_lookup generated) declared there
  | _ =>
      constructor
      · intro valid
        cases valid
      · intro fits
        obtain ⟨entries, shape⟩ := fits.object
        cases shape

/-- In a row nothing is left to fill in. -/
theorem filledIn_of_validate (valid : d.recordType.validate v = true) : d.FilledIn v := by
  rintro key ⟨filled, fresh⟩
  have generated : key ∈ Fields.names d.generatedKeys := mem_names_generatedKeys.mpr filled
  obtain ⟨t, found⟩ := Fields.lookup_of_mem_names generated
  cases v with
  | object entries =>
      rw [recordType, validate_object_iff (d.distinct_generatedKeys.extend d.fields)] at valid
      have fits := valid key (Fields.mem_names_extend.mpr (.inl generated))
      rw [← recordType, get_recordType found fresh] at fits
      rw [Json.get?]
      cases there : entries.lookup key with
      | some v => rfl
      | none =>
          obtain ⟨tables, rfl⟩ := linkTo_of_generated (Fields.mem_of_lookup found)
          rw [there, check_none, acceptsAbsent_linkTo] at fits
          cases fits
  | _ => cases valid

/-- What is a row is parsed as a new document to the same. -/
theorem parse_inputType_of_row (parsed : d.recordType.parse v = .ok w) : d.inputType.parse v = .ok w := by
  rw [recordType] at parsed
  rw [inputType_eq]
  cases v with
  | object entries =>
      obtain ⟨kept, each, rfl⟩ := parse_object_eq_ok.mp parsed
      refine parse_object_eq_ok.mpr ⟨kept, ?_, rfl⟩
      refine parseFields_of_lookup d.names_newKeys.symm (d.distinct_generatedKeys.extend d.fields) ?_ each
      intro key t u slot row new taken
      obtain ⟨_, rfl⟩ | ⟨_, _, rfl⟩ := lookup_inputType row new
      · exact taken
      · exact parseSlot_optional taken
  | _ => cases parsed

/-- A new document with nothing left to fill in is parsed as a row to the same. -/
theorem parse_recordType_of_filledIn (parsed : d.inputType.parse v = .ok w) (filled : d.FilledIn v) :
    d.recordType.parse v = .ok w := by
  rw [inputType_eq] at parsed
  rw [recordType]
  cases v with
  | object entries =>
      obtain ⟨kept, each, rfl⟩ := parse_object_eq_ok.mp parsed
      refine parse_object_eq_ok.mpr ⟨kept, ?_, rfl⟩
      refine parseFields_of_lookup d.names_newKeys (d.distinct_optionalKeys.extend d.fields) ?_ each
      intro key u t slot new row taken
      obtain ⟨_, rfl⟩ | ⟨generated, _, rfl⟩ := lookup_inputType row new
      · exact taken
      · obtain ⟨v, there⟩ := Option.isSome_iff_exists.mp (filled key generated)
        rw [Json.get?] at there
        rw [there, parseSlot, parse_optional] at taken
        rw [there, parseSlot]
        exact taken
  | _ => cases parsed

/-- A document is parsed as a row to what it is parsed to as a new one, if nothing is left to fill in. -/
theorem parse_recordType_iff :
    d.recordType.parse v = .ok w ↔ d.inputType.parse v = .ok w ∧ d.FilledIn v := by
  constructor
  · intro parsed
    exact ⟨parse_inputType_of_row parsed, filledIn_of_validate (validate_iff_parse.mpr ⟨w, parsed⟩)⟩
  · rintro ⟨parsed, filled⟩
    exact parse_recordType_of_filledIn parsed filled

/-- **A row is a new document with nothing left to fill in.** A document is accepted as a new one exactly if
it fits under every key that it has or that is declared, the keys that the server fills in being left out at
will. It is accepted as a row exactly if besides it has all these keys. Both parse it to the same. -/
theorem recordType_iff_filledIn (d : Declaration) (v : Json) :
    (d.inputType.validate v = true ↔ d.FitsNewRow v) ∧
      (d.recordType.validate v = true ↔ d.inputType.validate v = true ∧ d.FilledIn v) ∧
      (d.recordType.validate v = true → d.inputType.validate v = true →
        ∃ w, d.recordType.parse v = .ok w ∧ d.inputType.parse v = .ok w) := by
  refine ⟨validate_inputType_iff_fits, ?_, ?_⟩
  · rw [validate_iff_parse, validate_iff_parse]
    simp only [parse_recordType_iff, exists_and_right]
  · intro row _
    obtain ⟨w, parsed⟩ := validate_iff_parse.mp row
    exact ⟨w, parsed, (parse_recordType_iff.mp parsed).1⟩

namespace Letters

/-- Users write letters; the writer is declared to be a name. -/
def wrote : Declaration :=
  .edge ⟨"wrote", ["user"], ["letter"], [("at", .number), ("in", .string)]⟩

/-- The server has not filled in `id` and `out` yet. -/
def unsent : Json := .object [("in", .string "ada"), ("at", .int 3)]

end Letters

/-- The keys that are missing in a new letter keep it from being a row, and from nothing else. -/
theorem unsent_fits_no_row :
    Letters.wrote.inputType.validate Letters.unsent = true ∧ Letters.wrote.FitsNewRow Letters.unsent ∧
      ¬ Letters.wrote.FilledIn Letters.unsent ∧
      Letters.wrote.recordType.validate Letters.unsent = false := by
  obtain ⟨new, row, _⟩ := recordType_iff_filledIn Letters.wrote Letters.unsent
  have accepted : Letters.wrote.inputType.validate Letters.unsent = true := rfl
  have missing : ¬ Letters.wrote.FilledIn Letters.unsent := by
    intro filled
    have there := filled "id" ⟨.inl rfl, by decide⟩
    cases there
  refine ⟨accepted, new.mp accepted, missing, ?_⟩
  rw [Bool.eq_false_iff]
  intro valid
  exact missing (row.mp valid).2

end Declaration

end GraphQuery
