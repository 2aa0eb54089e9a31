import GraphQuery.Proofs.Descriptor.Parts
import GraphQuery.Proofs.Outcome
import GraphQuery.Session
import GraphQuery.Statement.Diff

/-!
# Patches keep their values only outermost

A statement that returns patches is executed without looking at its result, since the values of the
operations may have any shape. Inside a projection the result is parsed against the shape of the statement,
and that has no key for these values.
-/

namespace GraphQuery

open Descriptor Outcome

/-! ## Operations -/

namespace PatchOp

variable {p : PatchOp} {ps : List PatchOp} {v : Json}

theorem spelledBy_encode (p : PatchOp) : p.SpelledBy p.encode := by
  obtain ⟨op, path, value, origin⟩ := p
  refine ⟨_, rfl, rfl, rfl, ?_, ?_⟩
  · cases value <;> cases origin <;> rfl
  · cases value <;> cases origin <;> rfl

/-- What is spelled out comes back as the operation alone, and without its value. -/
theorem SpelledBy.parse (spelled : p.SpelledBy v) :
    (object [("op", .string), ("path", .string), ("from", .option .string)]).parse v =
      .ok p.withoutValue.encode := by
  obtain ⟨op, path, value, origin⟩ := p
  obtain ⟨entries, rfl, atOp, atPath, _, atFrom⟩ := spelled
  have text (s : String) : Descriptor.string.parse (.string s) = .ok (.string s) := rfl
  rw [parse_object_eq_ok]
  refine ⟨_, ?_, rfl⟩
  rw [parseFields, atOp]
  dsimp only
  rw [text, parseFields, atPath]
  dsimp only
  rw [text, parseFields, atFrom]
  cases origin <;> rfl

theorem SpelledByAll.parse (spelled : SpelledByAll ps v) :
    ReturnMode.diffType.parse v = .ok (encodeWithoutValues ps) := by
  obtain ⟨items, rfl, each⟩ := spelled
  refine parse_list_of_forall₂ (List.forall₂_map_right_iff.mpr (List.forall₂_map_right_iff.mpr ?_))
  exact each.flip.imp fun _ _ spelled => SpelledBy.parse spelled

/-- An operation is the same without its value if it has none. -/
theorem encode_withoutValue_iff (p : PatchOp) : p.withoutValue.encode = p.encode ↔ p.value = none := by
  obtain ⟨op, path, value, origin⟩ := p
  cases value with
  | none => exact iff_of_true rfl rfl
  | some v =>
      refine iff_of_false ?_ nofun
      cases origin <;> simp [encode, withoutValue, optionalKey]

end PatchOp

/-! ## Statements that return patches -/

namespace Statement

variable {s : Statement}

theorem output_of_returnsDiff (db : Database) (returns : s.ReturnsDiff) :
    s.output db = ReturnMode.listUnless s.isOnly ReturnMode.diffType := by
  obtain ⟨t, found, mode⟩ := returns
  have patches (default : ReturnMode) (row : Descriptor) (only : Bool) :
      t.output default row only = ReturnMode.listUnless only ReturnMode.diffType := by
    rw [Trailer.output, mode]
    rfl
  cases s with
  | select => cases found
  | _ =>
      cases found
      exact patches _ _ _

theorem checksOutput_of_returnsDiff (returns : s.ReturnsDiff) : s.checksOutput = false := by
  obtain ⟨t, found, mode⟩ := returns
  have unchecked : t.checksOutput = false := by rw [Trailer.checksOutput, mode]
  cases s with
  | select => cases found
  | _ =>
      cases found
      exact unchecked

end Statement

/-! ## Shapes -/

namespace Shape

variable {db : Database}

/-- What comes for an entry is handed on under its key. -/
theorem HandsOnEntries.under {key : String} {s : Shape} {rest : List (String × Shape)}
    {given kept : List (String × Json)} {w : Json} (first : HandsOn db s (given.lookup key) (some w))
    (others : HandsOnEntries db rest given kept) :
    HandsOnEntries db ((key, s) :: rest) given ((key, w) :: kept) := .cons first others

mutual

/-- What a shape hands on is what parsing leaves of what comes for it. -/
theorem parseSlot_of_handsOn (scope : ScopeId) (shape : Shape) {x y : Option Json}
    (hands : HandsOn db shape x y) : (shape.lower scope).type.parseSlot x = .ok y := by
  cases shape with
  | expr e =>
      cases hands with
      | patches returns only spelled =>
          rw [lower, Statement.toExpr, Statement.output_of_returnsDiff db returns, only, parseSlot_some]
          refine parse_list_of_forall₂ (List.forall₂_map_right_iff.mpr ?_)
          exact spelled.flip.imp fun _ _ patch => PatchOp.SpelledByAll.parse patch
      | patch returns only spelled =>
          rw [lower, Statement.toExpr, Statement.output_of_returnsDiff db returns, only, parseSlot_some]
          exact PatchOp.SpelledByAll.parse spelled
      | expr parsed => exact parsed
  | value v =>
      cases hands with
      | value parsed => exact parsed
  | object entries =>
      cases hands with
      | object each =>
          have parsed := parseFields_of_handsOn scope entries each
          rw [lower, objectExpr, Descriptor.parseSlot, Descriptor.parse, parsed]
          rfl
  | array items =>
      cases hands with
      | array each =>
          obtain ⟨length, parsed⟩ := parseItems_of_handsOn scope items each 0
          rw [lower, arrayExpr, Descriptor.parseSlot, Descriptor.parse, List.length_map, if_pos length, parsed]
          rfl
termination_by structural shape

theorem parseFields_of_handsOn (scope : ScopeId) (entries : List (String × Shape))
    {given kept : List (String × Json)} (hands : HandsOnEntries db entries given kept) :
    Descriptor.parseFields ((lowerEntries scope entries).map fun (key, e) => (key, e.type)) given =
      .ok kept := by
  match entries with
  | [] =>
      cases hands
      rfl
  | (key, s) :: rest =>
      cases hands with
      | cons first others =>
          exact parseFields_cons_eq_ok.mpr ⟨_, _, parseSlot_of_handsOn scope s first,
            parseFields_of_handsOn scope rest others, rfl⟩
termination_by structural entries

theorem parseItems_of_handsOn (scope : ScopeId) (items : List Shape) {given kept : List Json}
    (hands : HandsOnItems db items given kept) (position : Nat) :
    (lowerItems scope items).length = given.length ∧
      Descriptor.parseItems position ((lowerItems scope items).map Expr.type) given = .ok kept := by
  match items with
  | [] =>
      cases hands
      exact ⟨rfl, rfl⟩
  | s :: rest =>
      cases hands with
      | cons first others =>
          have parsed := parseSlot_some.mp (parseSlot_of_handsOn scope s first)
          obtain ⟨length, behind⟩ := parseItems_of_handsOn scope rest others (position + 1)
          refine ⟨congrArg (· + 1) length, ?_⟩
          rw [lowerItems, List.map_cons, Descriptor.parseItems, parsed, behind]
termination_by structural items

end

end Shape

/-! ## Execution -/

namespace Session

variable {db : Database} {transport : Transport} {v : Json}

/-- The one result that comes back is parsed. -/
theorem execute_of_result {s : Statement} (answers : transport s.compile = .ok [v]) :
    execute db transport s = (parseResult db s v).mapError .type := by
  rw [execute, run, answers]
  rfl

/-- What a statement returns as patches is passed through, whatever it is. -/
theorem execute_of_returnsDiff {s : Statement} (returns : s.ReturnsDiff)
    (answers : transport s.compile = .ok [v]) : execute db transport s = .ok v := by
  rw [execute_of_result answers, parseResult, Statement.checksOutput_of_returnsDiff returns]
  rfl

theorem execute_of_parse {s : Select} {w : Json} (answers : transport (Statement.select s).compile = .ok [v])
    (parsed : (s.output db).parse v = .ok w) : execute db transport (.select s) = .ok w := by
  rw [execute_of_result answers]
  have result : parseResult db (.select s) v = .ok w := parsed
  rw [result]
  rfl

/-- **Patches keep their values only outermost.** A statement that returns patches is executed without any
change to its result. A selection that projects a shape hands on what the shape does: the patches of the
statements in it come back whole but for the values of their operations, so that an operation comes back as
it is exactly if it has none. -/
theorem execute_patches (db : Database) (transport : Transport) :
    (∀ (s : Statement) answer, s.ReturnsDiff → transport s.compile = .ok [answer] →
      execute db transport s = .ok answer) ∧
    (∀ (s : Select) (shape : Shape) rows results, s.only = false →
      transport (Statement.select (s.project shape)).compile = .ok [.array rows] →
      List.Forall₂ (fun row result => shape.HandsOn db (some row) (some result)) rows results →
      execute db transport (.select (s.project shape)) = .ok (.array results)) ∧
    (∀ (s : Select) (shape : Shape) row result, s.only = true →
      transport (Statement.select (s.project shape)).compile = .ok [row] →
      shape.HandsOn db (some row) (some result) →
      execute db transport (.select (s.project shape)) = .ok result) ∧
    ∀ p : PatchOp, p.withoutValue.encode = p.encode ↔ p.value = none := by
  refine ⟨fun s answer => execute_of_returnsDiff, ?_, ?_, PatchOp.encode_withoutValue_iff⟩
  · intro s shape rows results only answers hands
    have output : (s.project shape).output db = .list (shape.lower s.scope).type := by
      rw [Select.output, Select.project, only]
      rfl
    refine execute_of_parse answers ?_
    rw [output]
    refine parse_list_of_forall₂ (hands.imp fun row result hands => ?_)
    exact parseSlot_some.mp (Shape.parseSlot_of_handsOn s.scope shape hands)
  · intro s shape row result only answers hands
    have output : (s.project shape).output db = .unionOf [(shape.lower s.scope).type, .null] := by
      rw [Select.output, Select.project, only]
      rfl
    refine execute_of_parse answers ?_
    rw [output]
    exact parse_unionOf_null (parseSlot_some.mp (Shape.parseSlot_of_handsOn s.scope shape hands))

end Session

namespace Audit

def user : Declaration := .table ⟨"user", [("name", .string)]⟩

def db : Database := .ofDeclarations [user]

/-- Ada is renamed, and it comes back what has changed. -/
def rename : Update where
  scope := ⟨0⟩
  upsert := false
  target := .record ⟨"user", .string "ada"⟩
  row := user.recordType
  input := user.inputType
  only := false
  payload := some (.set [⟨"name", .assign, .ofValue ⟨0⟩ (.string "Bob")⟩])
  condition := none
  trailer := .setMode .empty .diff

/-- All users are selected. -/
def users : Select :=
  ⟨⟨1⟩, .table "user", user.recordType, .all, false, none, [], none, [], none, none, [], none, false⟩

def renamed : PatchOp := .replace "/name" (.string "Bob")

def moved : PatchOp := .move "/nick" "/name"

/-- Who has made the change, and the patches. -/
def shape : Shape :=
  .object [("by", .value (.string "Eve")),
    ("changes", .array [.expr ((Statement.update rename).toExpr db), .value (.int 2)])]

/-- A row as it comes: keys are in another order, also in an operation. -/
def row : Json :=
  .object [("changes", .array [.array [.array
      [.object [("value", .string "Bob"), ("path", .string "/name"), ("op", .string "replace")],
        moved.encode]], .int 2]),
    ("by", .string "Eve")]

def result : Json :=
  .object [("by", .string "Eve"),
    ("changes", .array [.array [.array [renamed.withoutValue.encode, moved.encode]], .int 2])]

theorem handsOn : shape.HandsOn db (some row) (some result) := by
  have spelled : PatchOp.SpelledByAll [renamed, moved] (.array
      [.object [("value", .string "Bob"), ("path", .string "/name"), ("op", .string "replace")],
        moved.encode]) :=
    ⟨_, rfl, .cons ⟨_, rfl, rfl, rfl, rfl, rfl⟩ (.cons moved.spelledBy_encode .nil)⟩
  have returns : (Statement.update rename).ReturnsDiff := ⟨_, rfl, rfl⟩
  have patches : Shape.HandsOn db (.expr ((Statement.update rename).toExpr db)) _ _ :=
    .patches returns rfl (.cons spelled .nil)
  have author : Shape.HandsOn db (.value (.string "Eve")) (some (.string "Eve")) (some (.string "Eve")) :=
    .value rfl
  have count : Shape.HandsOn db (.value (.int 2)) (some (.int 2)) (some (.int 2)) := .value rfl
  have changes := Shape.HandsOn.array (.cons patches (.cons count .nil))
  exact .object (.under author (.under changes .nil))

end Audit

/-- In a shape a replaced value is lost, and a move comes back as it is. -/
theorem Session.execute_patches_audit :
    (Statement.update Audit.rename).ReturnsDiff ∧
      execute Audit.db (fun _ => .ok [.string "anything"]) (.update Audit.rename) =
        .ok (.string "anything") ∧
      Audit.shape.HandsOn Audit.db (some Audit.row) (some Audit.result) ∧
      execute Audit.db (fun _ => .ok [.array [Audit.row, Audit.row]])
        (.select (Audit.users.project Audit.shape)) = .ok (.array [Audit.result, Audit.result]) ∧
      execute Audit.db (fun _ => .ok [Audit.row])
        (.select (Audit.users.setOnly.project Audit.shape)) = .ok Audit.result ∧
      Audit.moved.withoutValue.encode = Audit.moved.encode := by
  have returns : (Statement.update Audit.rename).ReturnsDiff := ⟨_, rfl, rfl⟩
  obtain ⟨own, _, _, same⟩ := execute_patches Audit.db fun _ => .ok [.string "anything"]
  obtain ⟨_, rows, _, _⟩ := execute_patches Audit.db fun _ => .ok [.array [Audit.row, Audit.row]]
  obtain ⟨_, _, row, _⟩ := execute_patches Audit.db fun _ => .ok [Audit.row]
  exact ⟨returns, own _ _ returns rfl, Audit.handsOn,
    rows Audit.users Audit.shape _ _ rfl rfl (.cons Audit.handsOn (.cons Audit.handsOn .nil)),
    row Audit.users.setOnly Audit.shape _ _ rfl rfl Audit.handsOn, (same Audit.moved).mpr rfl⟩

/-- The new name comes back when the statement is executed, and not when it is selected. -/
theorem Audit.selected_patch_without_value :
    ((Update.of db ⟨0⟩ false (.record ⟨"user", .string "ada"⟩)).mapError QueryError.usage >>= fun u =>
      (u.assign "name" .assign (.value (.string "Bob"))).map (·.returnMode .diff)) = .ok rename ∧
    Select.of db ⟨1⟩ (.table "user") = .ok users ∧
    Session.execute db (fun _ => .ok [.array [.array [renamed.encode]]]) (.update rename) =
      .ok (.array [.array [renamed.encode]]) ∧
    Session.execute db (fun _ => .ok [.array [.array [.array [renamed.encode]]]])
        (.select (users.project (.expr ((Statement.update rename).toExpr db)))) =
      .ok (.array [.array [.array
        [.object [("op", .string "replace"), ("path", .string "/name")]]]]) ∧
    renamed.encode =
      .object [("op", .string "replace"), ("path", .string "/name"), ("value", .string "Bob")] :=
  ⟨rfl, rfl, rfl, rfl, rfl⟩

end GraphQuery
