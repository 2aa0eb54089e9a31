import GraphQuery.Proofs.Record
import GraphQuery.Proofs.Schema.RowShape
import GraphQuery.Proofs.Schema.Surviving
import GraphQuery.Statement.Insert
import GraphQuery.Statement.Relate

/-!
# Both ways to an edge

An edge is created in relating two records, or in inserting a document that carries references to them.
The one looks for the tables of the records in the lists of the declaration, the other checks the references
against links that are built from these lists. They agree on which ends an edge may have.
-/

namespace GraphQuery

open Outcome

/-! ## The shape of a row at an end -/

theorem Side.forall_iff {p : Side → Prop} : (∀ side, p side) ↔ p .source ∧ p .target := by
  constructor
  · intro each
    exact ⟨each .source, each .target⟩
  · rintro ⟨atSource, atTarget⟩ side
    cases side with
    | source => exact atSource
    | target => exact atTarget

namespace EdgeDecl

variable {e : EdgeDecl} {side : Side}

/-- The tables of the records that an end may be. -/
def tablesAt (e : EdgeDecl) : Side → List String
  | .source => e.sources
  | .target => e.targets

/-- The shape of a stored row accepts the value at the end. -/
def acceptsAt (e : EdgeDecl) (side : Side) (v : Json) : Bool :=
  ((Declaration.edge e).recordType.get (.field side.key)).validate v

theorem lookup_generatedKeys (e : EdgeDecl) (side : Side) :
    (Declaration.edge e).generatedKeys.lookup side.key =
      some (Declaration.linkTo (e.tablesAt side)) := by
  cases side with
  | source => rfl
  | target => rfl

theorem get_recordType_key (fresh : side.key ∉ Fields.names e.fields) :
    (Declaration.edge e).recordType.get (.field side.key) = Declaration.linkTo (e.tablesAt side) :=
  Declaration.get_recordType (e.lookup_generatedKeys side) fresh

theorem get_inputType_key (fresh : side.key ∉ Fields.names e.fields) :
    (Declaration.edge e).inputType.get (.field side.key) =
      (Declaration.linkTo (e.tablesAt side)).optional :=
  Declaration.get_inputType (e.lookup_generatedKeys side) fresh

/-- A row has a reference at an end if the table of the record is one of those that are declared. -/
theorem acceptsAt_eq_contains (fresh : side.key ∉ Fields.names e.fields) {v : Json} {ref : RecordRef}
    (read : RecordRef.ofJson? v = some ref) :
    e.acceptsAt side v = (e.tablesAt side).contains ref.table := by
  rw [acceptsAt, get_recordType_key fresh, Declaration.validate_linkTo read]

end EdgeDecl

/-! ## Documents with their ends -/

namespace Document

/-- An end of an edge is kept under the key. -/
def isEnd (key : String) : Bool := key == Side.source.key || key == Side.target.key

/-- What a document has under other keys than those of the ends. -/
def withoutEnds (entries : List (String × Json)) : List (String × Json) :=
  entries.filter fun entry => !isEnd entry.1

variable {e : EdgeDecl} {entries : List (String × Json)} {key : String}

theorem isEnd_iff : isEnd key = true ↔ ∃ side : Side, key = side.key := by
  rw [isEnd, Bool.or_eq_true, beq_iff_eq, beq_iff_eq]
  constructor
  · rintro (same | same)
    · exact ⟨.source, same⟩
    · exact ⟨.target, same⟩
  · rintro ⟨side, same⟩
    cases side with
    | source => exact .inl same
    | target => exact .inr same

theorem lookup_withoutEnds :
    (withoutEnds entries).lookup key = if isEnd key then none else entries.lookup key := by
  rw [withoutEnds, Fields.lookup_filter fun key => !isEnd key]
  cases isEnd key <;> rfl

/-- A new document is checked apart from its ends, and these one by one. -/
theorem validate_inputType_iff_ends (fresh : ∀ side : Side, side.key ∉ Fields.names e.fields) :
    (Declaration.edge e).inputType.validate (.object entries) = true ↔
      (Declaration.edge e).inputType.validate (.object (withoutEnds entries)) = true ∧
        ∀ side : Side, (Declaration.linkTo (e.tablesAt side)).optional.check
          (entries.lookup side.key) = true := by
  simp only [Declaration.validate_inputType_iff, lookup_withoutEnds]
  constructor
  · intro each
    refine ⟨?_, ?_⟩
    · intro key declared
      by_cases stays : isEnd key = true
      · -- Without its end the document is still valid, since a generated key may be missing.
        obtain ⟨side, rfl⟩ := isEnd_iff.mp stays
        rw [if_pos stays, EdgeDecl.get_inputType_key (fresh side), Descriptor.check_none]
        exact Descriptor.acceptsAbsent_optional _
      · rw [if_neg stays]
        exact each key declared
    · intro side
      have generated : side.key ∈ Fields.names (Declaration.edge e).generatedKeys :=
        List.mem_map_of_mem (Fields.mem_of_lookup (e.lookup_generatedKeys side))
      rw [← EdgeDecl.get_inputType_key (fresh side)]
      exact each side.key (.inl generated)
  · rintro ⟨others, ends⟩ key declared
    by_cases atEnd : isEnd key = true
    · obtain ⟨side, rfl⟩ := isEnd_iff.mp atEnd
      rw [EdgeDecl.get_inputType_key (fresh side)]
      exact ends side
    · have fits := others key declared
      rwa [if_neg atEnd] at fits

/-- A document that has values at its ends, and is valid otherwise, is valid if a row has these values
there. -/
theorem validate_inputType_of_ends (fresh : ∀ side : Side, side.key ∉ Fields.names e.fields)
    {source target : Json} (atSource : entries.lookup Side.source.key = some source)
    (atTarget : entries.lookup Side.target.key = some target)
    (others : (Declaration.edge e).inputType.validate (.object (withoutEnds entries)) = true) :
    (Declaration.edge e).inputType.validate (.object entries) = true ↔
      e.acceptsAt .source source = true ∧ e.acceptsAt .target target = true := by
  rw [validate_inputType_iff_ends fresh, and_iff_right others, Side.forall_iff, atSource, atTarget,
    Descriptor.check_optional_some, Descriptor.check_optional_some, EdgeDecl.acceptsAt,
    EdgeDecl.acceptsAt, EdgeDecl.get_recordType_key (fresh .source),
    EdgeDecl.get_recordType_key (fresh .target), Descriptor.validate, Descriptor.validate]

end Document

/-! ## Relating and inserting -/

theorem Database.requireEdge_of_mem {db : Database} {e : EdgeDecl}
    (declared : Declaration.edge e ∈ db.declarations) : db.requireEdge e.name = .ok e := by
  have found : db.declaration? e.name = some (.edge e) := declaration?_of_mem declared
  rw [requireEdge, require, found]

namespace Relate

section Endpoint

variable {edge : String} {side : Side} {ref : RecordRef} {allowed : List String} {error : UsageError}

theorem checkEndpoint_eq_ok :
    checkEndpoint edge side (.record ref) allowed = .ok () ↔ allowed.contains ref.table = true := by
  rw [checkEndpoint]
  split
  · next listed => exact iff_of_true rfl listed
  · next missing => exact iff_of_false nofun missing

theorem checkEndpoint_eq_error :
    checkEndpoint edge side (.record ref) allowed = .error error ↔
      ¬ allowed.contains ref.table = true ∧ error = .endpointMismatch edge side ref.table := by
  rw [checkEndpoint]
  split
  · next listed => exact iff_of_false nofun fun other => other.1 listed
  · next missing => rw [and_iff_right missing, Except.error.injEq, eq_comm]

end Endpoint

variable {db : Database} {scope : ScopeId} {e : EdgeDecl} {a b : RecordRef}

/-- Two records are related if both tables are listed. -/
theorem isOk_of_records (declared : Declaration.edge e ∈ db.declarations) :
    (Relate.of db scope e.name (.record a) (.record b)).isOk = true ↔
      (e.tablesAt .source).contains a.table = true ∧ (e.tablesAt .target).contains b.table = true := by
  rw [Relate.of, Database.requireEdge_of_mem declared]
  constructor
  · intro made
    obtain ⟨_, ⟨⟩, made⟩ := isOk_bind.mp made
    obtain ⟨_, atSource, made⟩ := isOk_bind.mp made
    obtain ⟨_, atTarget, _⟩ := isOk_bind.mp made
    exact ⟨checkEndpoint_eq_ok.mp atSource, checkEndpoint_eq_ok.mp atTarget⟩
  · rintro ⟨atSource, atTarget⟩
    exact isOk_bind.mpr ⟨_, rfl, isOk_bind.mpr ⟨_, checkEndpoint_eq_ok.mpr atSource,
      isOk_bind.mpr ⟨_, checkEndpoint_eq_ok.mpr atTarget, rfl⟩⟩⟩

/-- A pair is refused for its target only if the table of its source is listed. -/
theorem error_of_records (declared : Declaration.edge e ∈ db.declarations) {error : UsageError}
    (failed : Relate.of db scope e.name (.record a) (.record b) = .error error) :
    error = if (e.tablesAt .source).contains a.table then .endpointMismatch e.name .target b.table
      else .endpointMismatch e.name .source a.table := by
  rw [Relate.of, Database.requireEdge_of_mem declared] at failed
  obtain declared | ⟨_, same, failed⟩ := bind_eq_error.mp failed
  · cases declared
  cases same
  obtain atSource | ⟨_, atSource, failed⟩ := bind_eq_error.mp failed
  · obtain ⟨missing, rfl⟩ := checkEndpoint_eq_error.mp atSource
    exact (if_neg missing).symm
  · obtain atTarget | ⟨_, _, done⟩ := bind_eq_error.mp failed
    · obtain ⟨_, rfl⟩ := checkEndpoint_eq_error.mp atTarget
      exact (if_pos (checkEndpoint_eq_ok.mp atSource)).symm
    · cases done

end Relate

namespace Insert

/-- A first document is inserted if it is one for a new row. -/
theorem isOk_content {i : Insert} {entries : List (String × Json)} (first : i.data = .empty) :
    (i.content (.object entries)).isOk = i.input.validate (.object entries) := by
  rw [content, first, Descriptor.validate, ← Descriptor.isOk_parse]
  dsimp only [documentsOf]
  rw [List.mapM_cons, List.mapM_nil]
  cases i.input.parse (.object entries) with
  | error e => rfl
  | ok parsed => rfl

end Insert

/-- **Both ways to an edge agree.** Two records are related by a declared edge exactly if a stored row has
their references at its ends, and exactly then a document is inserted that carries these references and
is valid otherwise. A pair of records is refused for its source whenever a row does not have that, and for
its target otherwise. -/
theorem EdgeDecl.endpoints_agree {db : Database} {e : EdgeDecl} {a b : RecordRef} {source target : Json}
    (declared : Declaration.edge e ∈ db.declarations)
    (fresh : "in" ∉ Fields.names e.fields ∧ "out" ∉ Fields.names e.fields)
    (reads : RecordRef.ofJson? source = some a ∧ RecordRef.ofJson? target = some b)
    (scope other : ScopeId) :
    let related := Relate.of db scope e.name (.record a) (.record b)
    let fit := e.acceptsAt .source source = true ∧ e.acceptsAt .target target = true
    (related.isOk = true ↔ fit) ∧
    (∃ insert, Insert.ofEdge db other e.name = .ok insert ∧
      ∀ entries : List (String × Json),
        entries.lookup "in" = some source → entries.lookup "out" = some target →
        (Declaration.edge e).inputType.validate (.object (Document.withoutEnds entries)) = true →
        ((insert.content (.object entries)).isOk = true ↔ fit)) ∧
    ∀ error, related = .error error →
      error = if e.acceptsAt .source source then .endpointMismatch e.name .target b.table
        else .endpointMismatch e.name .source a.table := by
  intro related fit
  have apart : ∀ side : Side, side.key ∉ Fields.names e.fields := Side.forall_iff.mpr fresh
  have atSource := acceptsAt_eq_contains (apart .source) reads.1
  have atTarget := acceptsAt_eq_contains (apart .target) reads.2
  have listed : fit ↔ (e.tablesAt .source).contains a.table = true ∧
      (e.tablesAt .target).contains b.table = true := by
    rw [← atSource, ← atTarget]
  refine ⟨?_, ⟨Insert.start other true (.edge e), ?_, ?_⟩, ?_⟩
  · rw [listed]
    exact Relate.isOk_of_records declared
  · rw [Insert.ofEdge, Database.requireEdge_of_mem declared]
    rfl
  · intro entries atIn atOut others
    rw [Insert.isOk_content rfl]
    exact Document.validate_inputType_of_ends apart atIn atOut others
  · intro error failed
    rw [atSource]
    exact Relate.error_of_records declared failed

namespace Follows

/-- Persons follow pages, persons, and a table that is not declared. -/
def edge : EdgeDecl :=
  ⟨"follows", ["person", "person"], ["page", "person", "draft"], [("since", .number)]⟩

def db : Database :=
  .ofDeclarations [.table ⟨"page", []⟩, .edge edge, .table ⟨"person", []⟩]

def ada : RecordRef := ⟨"person", .string "ada"⟩

def draft : RecordRef := ⟨"draft", .array [.int 3, .null]⟩

/-- Ada is referred to by a text, the draft by an object. -/
def document : List (String × Json) :=
  [("out", draft.toJson), ("since", .int 2021), ("in", .string "person:ada"), ("note", .null)]

end Follows

/-- A person follows a draft, and no draft follows anything. -/
theorem EdgeDecl.endpoints_agree_follows :
    Declaration.edge Follows.edge ∈ Follows.db.declarations ∧
      ("in" ∉ Fields.names Follows.edge.fields ∧ "out" ∉ Fields.names Follows.edge.fields) ∧
      RecordRef.ofJson? (.string "person:ada") = some Follows.ada ∧
      RecordRef.ofJson? Follows.draft.toJson = some Follows.draft ∧
      (Relate.of Follows.db ⟨0⟩ "follows" (.record Follows.ada) (.record Follows.draft)).isOk = true ∧
      (∃ insert, Insert.ofEdge Follows.db ⟨1⟩ "follows" = .ok insert ∧
        (insert.content (.object Follows.document)).isOk = true) ∧
      ∀ error,
        Relate.of Follows.db ⟨0⟩ "follows" (.record Follows.draft) (.record Follows.ada) =
          .error error → error = .endpointMismatch "follows" .source "draft" := by
  have declared : Declaration.edge Follows.edge ∈ Follows.db.declarations := .tail _ (.head _)
  have fresh : "in" ∉ Fields.names Follows.edge.fields ∧ "out" ∉ Fields.names Follows.edge.fields := by
    decide
  have text : RecordRef.ofJson? (.string "person:ada") = some Follows.ada := rfl
  have object : RecordRef.ofJson? Follows.draft.toJson = some Follows.draft :=
    RecordRef.ofJson?_toJson Follows.draft
  obtain ⟨relates, ⟨insert, opened, inserts⟩, _⟩ :=
    endpoints_agree declared fresh ⟨text, object⟩ ⟨0⟩ ⟨1⟩
  obtain ⟨_, _, blames⟩ := endpoints_agree declared fresh ⟨object, text⟩ ⟨0⟩ ⟨1⟩
  have fit : Follows.edge.acceptsAt .source (.string "person:ada") = true ∧
      Follows.edge.acceptsAt .target Follows.draft.toJson = true := ⟨rfl, rfl⟩
  exact ⟨declared, fresh, text, object, relates.mpr fit,
    ⟨insert, opened, (inserts Follows.document rfl rfl rfl).mpr fit⟩, blames⟩

end GraphQuery
