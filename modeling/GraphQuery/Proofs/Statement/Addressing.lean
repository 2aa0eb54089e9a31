import GraphQuery.Proofs.Operation.Family
import GraphQuery.Proofs.Outcome
import GraphQuery.Proofs.Query.Document
import GraphQuery.Proofs.Query.PayloadCall
import GraphQuery.Proofs.Schema.NewRow
import GraphQuery.Proofs.Schema.Surviving
import GraphQuery.Statement.Basic

/-!
# Writing to a table and to its rows

The rows of a table are addressed by its name, or by a sub-query that selects all of them. What is written
to the name is checked against the shape of a new row, what is written to the sub-query against the shape of
its rows. Fields and partial documents are checked alike by both. A whole document has to name in the second
case what the server would fill in.
-/

namespace GraphQuery

open Descriptor Outcome

/-! ## One key of a row and of a new row -/

namespace Declaration

variable {d : Declaration} {name : String}

theorem optional_linkTo (tables : List String) : (linkTo tables).optional = .option (linkTo tables) := by
  rw [Descriptor.optional, acceptsAbsent_linkTo]
  rfl

/-- A reference has no fields. -/
theorem acceptsAbsent_get_linkTo (tables : List String) (name : String) :
    ((linkTo tables).get (.field name)).acceptsAbsent = true := by
  have link : ∀ t ∈ tables.map fun table => record (some table), ∃ table, t = record (some table) := by
    intro t member
    obtain ⟨table, _, rfl⟩ := List.mem_map.mp member
    exact ⟨table, rfl⟩
  refine unionOf_cases (p := fun u => (u.get (.field name)).acceptsAbsent = true) ?_ ?_ rfl ?_
  · intro t member
    obtain ⟨table, rfl⟩ := link t member
    exact flat_of_isSingle rfl
  · intro t member u part
    obtain ⟨table, rfl⟩ := link t member
    cases List.mem_singleton.mp part
    rfl
  · intro alts flat each
    rw [Descriptor.get, acceptsAbsent_unionOf, getEach_eq_map]
    obtain ⟨first, rest, rfl⟩ := List.exists_cons_of_length_pos (Nat.lt_of_lt_of_le Nat.two_pos flat.1)
    exact ⟨_, List.mem_map_of_mem List.mem_cons_self, each first List.mem_cons_self⟩

/-- Under a key a row and a new row ask for the same, or for a reference that the new row may leave out. -/
theorem get_inputType_cases (d : Declaration) (name : String) :
    d.inputType.get (.field name) = d.recordType.get (.field name) ∨
      ∃ tables, d.recordType.get (.field name) = linkTo tables ∧
        d.inputType.get (.field name) = (linkTo tables).optional := by
  rw [inputType_eq, recordType]
  by_cases declared : name ∈ Fields.names (Fields.extend d.generatedKeys d.fields)
  · obtain ⟨t, row⟩ := Fields.lookup_of_mem_names declared
    obtain ⟨u, new⟩ := Fields.lookup_of_mem_names (d.names_newKeys ▸ declared)
    rw [get_of_lookup row, get_of_lookup new]
    obtain ⟨_, same⟩ | ⟨_, ⟨tables, rfl⟩, rfl⟩ := lookup_inputType row new
    · exact .inl same
    · exact .inr ⟨tables, rfl, rfl⟩
  · have missing := Fields.lookup_eq_none.mpr declared
    have missing' := Fields.lookup_eq_none.mpr (d.names_newKeys ▸ declared)
    rw [get_of_lookup_none missing, get_of_lookup_none missing']
    exact .inl rfl

theorem present_get_inputType (d : Declaration) (name : String) :
    (d.inputType.get (.field name)).present = (d.recordType.get (.field name)).present := by
  obtain same | ⟨tables, row, new⟩ := d.get_inputType_cases name
  · rw [same]
  · rw [row, new, present_optional]

/-- Behind a key both are the same: the keys that the server fills in have no fields. -/
theorem atParts_inputType (d : Declaration) (name next : String) (rest : List String) :
    d.inputType.atParts (name :: next :: rest) = d.recordType.atParts (name :: next :: rest) := by
  rw [atParts_cons, atParts_cons, atParts_cons, atParts_cons]
  obtain same | ⟨tables, row, new⟩ := d.get_inputType_cases name
  · rw [same]
  · rw [row, new, optional_linkTo, Descriptor.get, Descriptor.optional, acceptsAbsent_get_linkTo, if_pos rfl]

/-- A field is assigned alike to a row and to a new row. -/
theorem checkAssignment_inputType (d : Declaration) (path : String) (v : Json) :
    Document.checkAssignment d.inputType path v = Document.checkAssignment d.recordType path v := by
  have same_or_link : d.inputType.atPath path = d.recordType.atPath path ∨
      ∃ tables, d.recordType.atPath path = linkTo tables ∧
        d.inputType.atPath path = (linkTo tables).optional := by
    have cut (t : Descriptor) : t.atPath path = t.atParts (Name.parts path) := rfl
    obtain ⟨name, rest, parts⟩ := List.exists_cons_of_ne_nil (Name.parts_ne_nil path)
    rw [cut, cut, parts]
    cases rest with
    | nil => exact d.get_inputType_cases name
    | cons next rest => exact .inl (d.atParts_inputType name next rest)
  obtain same | ⟨tables, row, new⟩ := same_or_link
  · unfold Document.checkAssignment
    rw [same]
  · -- Neither shape is the absent one, and both parse alike what is there.
    have declared : d.recordType.atPath path ≠ .absent := by
      intro nothing
      have solid := acceptsAbsent_linkTo tables
      rw [← row, nothing] at solid
      cases solid
    have declared' : d.inputType.atPath path ≠ .absent := by
      rw [new, optional_linkTo]
      exact nofun
    rw [Document.checkAssignment_of_ne declared, Document.checkAssignment_of_ne declared', row, new,
      parse_optional]

/-- A partial document is checked alike for a row and for a new row. -/
theorem checkPartial_inputType (d : Declaration) (v : Json) :
    Document.checkPartial d.inputType v = Document.checkPartial d.recordType v :=
  Document.checkPartial_congr d.present_get_inputType d.checkAssignment_inputType v

theorem checkOperand_inputType (d : Declaration) (path : String) (op : AssignOp) (value : Operand) :
    PayloadCall.checkOperand d.inputType path op value =
      PayloadCall.checkOperand d.recordType path op value := by
  simp only [PayloadCall.checkOperand, checkAssignment_inputType]

/-- What is made of a parsed row is made of a parsed new row with nothing left to fill in. -/
theorem map_parse_recordType_iff {α : Type} {f : Json → α} {v : Json} {a : α} :
    (d.recordType.parse v).map f = .ok a ↔ (d.inputType.parse v).map f = .ok a ∧ d.FilledIn v := by
  simp only [map_eq_ok, parse_recordType_iff]
  exact (exists_congr fun _ => and_right_comm).trans exists_and_right

end Declaration

/-! ## The two targets -/

namespace Target

variable {db : Database} {d : Declaration}

theorem rowType_table (declared : d ∈ db.declarations) :
    (table d.name).rowType db = .ok d.recordType := by
  rw [rowType, Database.require, Database.declaration?_of_mem declared]
  rfl

theorem inputType_table (declared : d ∈ db.declarations) :
    (table d.name).inputType db = .ok d.inputType := by
  have named : (table d.name).tableName? = some d.name := rfl
  rw [inputType, named]
  dsimp only
  rw [Database.require, Database.declaration?_of_mem declared]
  rfl

/-- A list of rows does not say what table they are of. -/
theorem rowType_rows {e : Expr} (rows : e.type = .list d.recordType) :
    (expr e).rowType db = .ok d.recordType := by
  rw [rowType, rows]
  rfl

theorem inputType_rows {e : Expr} (rows : e.type = .list d.recordType) :
    (expr e).inputType db = .ok d.recordType := by
  rw [inputType, tableName?, rowType_rows rows, rows]
  rfl

end Target

namespace Update

variable {db : Database} {scope : ScopeId} {upsert : Bool} {target : Target} {row input : Descriptor}
  {u other : Update} {c : PayloadCall}

theorem exists_of (rowType : target.rowType db = .ok row) (inputType : target.inputType db = .ok input) :
    ∃ u, Update.of db scope upsert target = .ok u ∧ u.input = input ∧ u.payload = none := by
  rw [Update.of, rowType, inputType]
  exact ⟨_, rfl, rfl, rfl⟩

/-- Make a call on the payload of an update. -/
def pay (u : Update) (c : PayloadCall) : Except QueryError Update :=
  u.withPayload (u.payload.call u.input u.scope c)

/-- The first call on an update stores what it gives, or fails as its argument does. -/
theorem map_payload_pay (fresh : u.payload = none) :
    (u.pay c).map payload = (PayloadSlot.typed (c.payload u.input u.scope)).map some := by
  have stored : (u.pay c).map payload = u.payload.call u.input u.scope c := by
    rw [pay]
    cases u.payload.call u.input u.scope c <;> rfl
  rw [stored, fresh, PayloadSlot.call_eq]
  cases c.payload u.input u.scope <;> rfl

theorem isOk_pay (fresh : u.payload = none) : (u.pay c).isOk = (c.payload u.input u.scope).isOk := by
  rw [← isOk_map payload, map_payload_pay fresh, isOk_map, PayloadSlot.typed, isOk_mapError]

/-- A call whose argument has to meet one more condition is made exactly if this is met. -/
theorem pay_iff {condition : Prop} {p : PayloadSlot} (fresh : u.payload = none)
    (fresh' : other.payload = none)
    (argument : ∀ q, c.payload u.input u.scope = .ok q ↔
      c.payload other.input other.scope = .ok q ∧ condition) :
    (u.pay c).map payload = .ok p ↔ (other.pay c).map payload = .ok p ∧ condition := by
  rw [map_payload_pay fresh, map_payload_pay fresh', map_eq_ok, map_eq_ok]
  simp only [PayloadSlot.typed, mapError_eq_ok, argument]
  exact (exists_congr fun _ => and_right_comm).trans exists_and_right

/-- **Two ways to the rows of a table.** Through a sub-query that selects the rows of a declared table the
same fields are assigned and the same partial documents are merged as through its name. A whole document is
written, the same one, exactly if it is through the name and has all keys that the server would fill in. -/
theorem writes_through_rows {db : Database} {d : Declaration} (declared : d ∈ db.declarations)
    (upsert : Bool) (inner outer own : ScopeId) :
    ∃ select through direct,
      Select.of db inner (.table d.name) = .ok select ∧
      Update.of db outer upsert (.expr ((Statement.select select).toExpr db)) = .ok through ∧
      Update.of db own upsert (.table d.name) = .ok direct ∧
      (∀ v p, (through.content v).map payload = .ok p ↔
        (direct.content v).map payload = .ok p ∧ d.FilledIn v) ∧
      (∀ v p, (through.replace v).map payload = .ok p ↔
        (direct.replace v).map payload = .ok p ∧ d.FilledIn v) ∧
      (∀ v, (through.merge v).map payload = (direct.merge v).map payload) ∧
      ∀ path op value, (through.assign path op value).isOk = (direct.assign path op value).isOk := by
  obtain ⟨select, selected, rows⟩ : ∃ select, Select.of db inner (.table d.name) = .ok select ∧
      ((Statement.select select).toExpr db).type = .list d.recordType := by
    rw [Select.of, Target.rowType_table declared]
    exact ⟨_, rfl, rfl⟩
  obtain ⟨through, opened, input, fresh⟩ : ∃ u, Update.of db outer upsert _ = .ok u ∧ _ :=
    exists_of (Target.rowType_rows rows) (Target.inputType_rows rows)
  obtain ⟨direct, named, input', fresh'⟩ : ∃ u, Update.of db own upsert _ = .ok u ∧ _ :=
    exists_of (Target.rowType_table declared) (Target.inputType_table declared)
  refine ⟨select, through, direct, selected, opened, named, ?_, ?_, ?_, ?_⟩
  · intro v p
    refine pay_iff (c := .content v) fresh fresh' fun q => ?_
    rw [input, input']
    exact d.map_parse_recordType_iff
  · intro v p
    refine pay_iff (c := .replace v) fresh fresh' fun q => ?_
    rw [input, input']
    exact d.map_parse_recordType_iff
  · intro v
    have same : PayloadCall.payload d.recordType through.scope (.merge v) =
        PayloadCall.payload d.inputType direct.scope (.merge v) := by
      rw [PayloadCall.payload, PayloadCall.payload, d.checkPartial_inputType]
    refine (map_payload_pay (c := .merge v) fresh).trans
      (Eq.trans ?_ (map_payload_pay (c := .merge v) fresh').symm)
    rw [input, input', same]
  · intro path op value
    refine (isOk_pay (c := .assign path op value) fresh).trans
      (Eq.trans ?_ (isOk_pay (c := .assign path op value) fresh').symm)
    rw [input, input', PayloadCall.payload, PayloadCall.payload, isOk_map, isOk_map,
      d.checkOperand_inputType]

end Update

namespace Mail

/-- Users write letters; where a letter goes is declared by the edge itself. -/
def wrote : Declaration :=
  .edge ⟨"wrote", ["user", "user"], ["letter"], [("at", .number), ("out", .option .string)]⟩

def user : Declaration := .table ⟨"user", [("name", .string)]⟩

def db : Database := .ofDeclarations [user, wrote]

/-- A row that is stored already, with keys in another order and one that is not declared. -/
def row : Json :=
  .object [("at", .int 3), ("in", .string "user:ada"), ("ink", .null), ("id", .string "wrote:1")]

def parsed : Json := .object [("id", .string "wrote:1"), ("in", .string "user:ada"), ("at", .int 3)]

/-- A row without the keys that the server fills in. -/
def draft : Json := .object [("at", .int 3)]

theorem filledIn_row : wrote.FilledIn row := by
  rintro key ⟨rfl | ⟨_, rfl | rfl⟩, fresh⟩
  · rfl
  · rfl
  · exact absurd (by decide) fresh

theorem not_filledIn_draft : ¬ wrote.FilledIn draft := fun filled =>
  nomatch filled "id" ⟨.inl rfl, by decide⟩

theorem accepts_draft : Document.checkPartial wrote.inputType draft = .ok () := by
  rw [draft, Document.checkPartial]
  exact Document.checkEntries_plain rfl rfl (Document.checkEntries_nil _)

end Mail

/-- An edge is written through its rows with the declared end missing, but not without the other one. -/
theorem Update.writes_through_rows_wrote :
    Mail.wrote ∈ Mail.db.declarations ∧
      ∃ select through direct,
        Select.of Mail.db ⟨0⟩ (.table "wrote") = .ok select ∧
        Update.of Mail.db ⟨1⟩ true (.expr ((Statement.select select).toExpr Mail.db)) = .ok through ∧
        Update.of Mail.db ⟨2⟩ true (.table "wrote") = .ok direct ∧
        (through.content Mail.row).map payload = .ok (some (.content Mail.parsed)) ∧
        (direct.replace Mail.draft).isOk = true ∧
        (∀ p, (through.replace Mail.draft).map payload ≠ .ok p) ∧
        (through.merge Mail.draft).map payload = .ok (some (.merge Mail.draft)) ∧
        (through.assign "in" .assign (.value (.string "letter:1"))).isOk = false := by
  have declared : Mail.wrote ∈ Mail.db.declarations := .tail _ (.head _)
  obtain ⟨select, through, direct, selected, opened, named, content, replace, merge, assign⟩ :=
    writes_through_rows declared true ⟨0⟩ ⟨1⟩ ⟨2⟩
  cases named.symm.trans (rfl : Update.of Mail.db ⟨2⟩ true (.table "wrote") = .ok _)
  refine ⟨declared, select, through, _, selected, opened, rfl, ?_, rfl, ?_, ?_, ?_⟩
  · exact (content _ _).mpr ⟨rfl, Mail.filledIn_row⟩
  · intro p written
    exact Mail.not_filledIn_draft ((replace _ p).mp written).2
  · have accepted : PayloadCall.payload Mail.wrote.inputType ⟨2⟩ (.merge Mail.draft) =
        .ok (.merge Mail.draft) := by
      rw [PayloadCall.payload, Mail.accepts_draft]
      rfl
    rw [merge]
    refine (map_payload_pay (c := .merge Mail.draft) rfl).trans ?_
    exact congrArg (fun p => (PayloadSlot.typed p).map some) accepted
  · exact assign "in" .assign _

/-- A new user is written to the table and refused for all its rows, where it should have an id. -/
theorem Mail.content_through_rows_refused :
    ∃ select through direct,
      Select.of Mail.db ⟨0⟩ (.table "user") = .ok select ∧
      Update.of Mail.db ⟨1⟩ false (.expr ((Statement.select select).toExpr Mail.db)) = .ok through ∧
      Update.of Mail.db ⟨2⟩ false (.table "user") = .ok direct ∧
      (direct.content (.object [("name", .string "Ada")])).isOk = true ∧
      (through.content (.object [("name", .string "Ada")])).isOk = false :=
  ⟨_, _, _, rfl, rfl, rfl, rfl, rfl⟩

end GraphQuery
