import GraphQuery.Statement.Basic
import Mathlib.Data.List.Forall2

/-!
# Patches as results

A statement that writes may return the patches that lead to the new records. `PatchOp.SpelledBy` says what
such an operation looks like in a result. `Shape.HandsOn` relates what comes for a shape when a statement
that projects it is executed to what the caller gets.
-/

namespace GraphQuery

namespace PatchOp

/-- The operation without the value that it writes or compares. -/
def withoutValue (p : PatchOp) : PatchOp := { p with value := none }

/-- The value is the operation, its keys in any order. -/
def SpelledBy (p : PatchOp) (v : Json) : Prop :=
  ∃ entries, v = .object entries ∧ entries.lookup "op" = some (.string p.op) ∧
    entries.lookup "path" = some (.string p.path) ∧ entries.lookup "value" = p.value ∧
    entries.lookup "from" = p.origin.map .string

/-- The value is a patch: a list of operations. -/
def SpelledByAll (ps : List PatchOp) (v : Json) : Prop :=
  ∃ items, v = .array items ∧ List.Forall₂ SpelledBy ps items

/-- The patch without the values of its operations, as a JSON value. -/
def encodeWithoutValues (ps : List PatchOp) : Json := encodeAll (ps.map withoutValue)

end PatchOp

namespace Statement

/-- The end of a statement that writes. -/
def trailer? : Statement → Option Trailer
  | select _ => none
  | create c => some c.trailer
  | update u => some u.trailer
  | delete d => some d.trailer
  | insert i => some i.trailer
  | relate r => some r.trailer

/-- The result is that of one record, not a list. -/
def isOnly : Statement → Bool
  | select s => s.only
  | create c => c.only
  | update u => u.only
  | delete d => d.only
  | insert _ => false
  | relate r => r.only

/-- The statement writes and returns patches. -/
def ReturnsDiff (s : Statement) : Prop := ∃ t, s.trailer? = some t ∧ t.mode = some .diff

end Statement

mutual

/-- What comes for a shape from the server, and what is handed on to the caller. A statement that returns
patches hands them on without the values of their operations. Any other expression and any raw value hands
on what its own shape says. Objects and arrays hand on what their parts do, an object in the order of its
keys and nothing else. A part may be absent. -/
inductive Shape.HandsOn (db : Database) : Shape → Option Json → Option Json → Prop
  | patches {s : Statement} {ps : List (List PatchOp)} {answers : List Json} :
      s.ReturnsDiff → s.isOnly = false → List.Forall₂ PatchOp.SpelledByAll ps answers →
      HandsOn db (.expr (s.toExpr db)) (some (.array answers))
        (some (.array (ps.map PatchOp.encodeWithoutValues)))
  | patch {s : Statement} {ps : List PatchOp} {answer : Json} :
      s.ReturnsDiff → s.isOnly = true → PatchOp.SpelledByAll ps answer →
      HandsOn db (.expr (s.toExpr db)) (some answer) (some (PatchOp.encodeWithoutValues ps))
  | expr {e : Expr} {x y : Option Json} : e.type.parseSlot x = .ok y → HandsOn db (.expr e) x y
  | value {v : Json} {x y : Option Json} :
      (Descriptor.ofValue v).parseSlot x = .ok y → HandsOn db (.value v) x y
  | object {entries : List (String × Shape)} {given kept : List (String × Json)} :
      HandsOnEntries db entries given kept →
      HandsOn db (.object entries) (some (.object given)) (some (.object kept))
  | array {items : List Shape} {given kept : List Json} :
      HandsOnItems db items given kept →
      HandsOn db (.array items) (some (.array given)) (some (.array kept))

inductive Shape.HandsOnEntries (db : Database) :
    List (String × Shape) → List (String × Json) → List (String × Json) → Prop
  | nil {given : List (String × Json)} : HandsOnEntries db [] given []
  | cons {key : String} {s : Shape} {rest : List (String × Shape)} {given kept : List (String × Json)}
      {slot : Option Json} :
      HandsOn db s (given.lookup key) slot → HandsOnEntries db rest given kept →
      HandsOnEntries db ((key, s) :: rest) given ((slot.map (key, ·)).toList ++ kept)

inductive Shape.HandsOnItems (db : Database) : List Shape → List Json → List Json → Prop
  | nil : HandsOnItems db [] [] []
  | cons {s : Shape} {rest : List Shape} {v w : Json} {given kept : List Json} :
      HandsOn db s (some v) (some w) → HandsOnItems db rest given kept →
      HandsOnItems db (s :: rest) (v :: given) (w :: kept)

end

end GraphQuery
