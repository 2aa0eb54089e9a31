import GraphQuery.Decode.Reader

/-!
# Patches

A patch is a list of operations on the parts of a document. Keys of an operation that it does not
need are left out when it is written.
-/

namespace GraphQuery

/-- One operation of a patch. -/
structure PatchOp where
  op : String
  path : String
  value : Option Json
  /-- Where a value is taken from. -/
  origin : Option String

namespace PatchOp

def add (path : String) (value : Json) : PatchOp := ⟨"add", path, some value, none⟩
def remove (path : String) : PatchOp := ⟨"remove", path, none, none⟩
def replace (path : String) (value : Json) : PatchOp := ⟨"replace", path, some value, none⟩
def change (path : String) (value : Json) : PatchOp := ⟨"change", path, some value, none⟩
def copy (origin path : String) : PatchOp := ⟨"copy", path, none, some origin⟩
def move (origin path : String) : PatchOp := ⟨"move", path, none, some origin⟩
def test (path : String) (value : Json) : PatchOp := ⟨"test", path, some value, none⟩

/-- A key with its value, if there is one. -/
def optionalKey (key : String) : Option Json → List (String × Json)
  | some v => [(key, v)]
  | none => []

def encode (p : PatchOp) : Json :=
  .object ([("op", .string p.op), ("path", .string p.path)] ++ optionalKey "value" p.value ++
    optionalKey "from" (p.origin.map Json.string))

/-- A list of operations as one JSON value. -/
def encodeAll (ps : List PatchOp) : Json := .array (ps.map encode)

/-- An operation of which some keys have been read. -/
structure Draft where
  op : Option String
  path : Option String
  value : Option Json
  origin : Option String

open Decode in
/-- Read an operation. A value of null counts as none. -/
def decode : Decoder PatchOp :=
  struct "PatchOp" [
      ⟨"op", fun d origin s => (string origin s).map fun x => { d with op := some x }, false⟩,
      ⟨"path", fun d origin s => (string origin s).map fun x => { d with path := some x }, false⟩,
      ⟨"value", fun d origin s => (option json origin s).map fun x => { d with value := x }, true⟩,
      ⟨"from", fun d origin s => (option string origin s).map fun x => { d with origin := x }, true⟩]
    (⟨none, none, none, none⟩ : Draft) fun d => do
      let op ← required "op" d.op
      let path ← required "path" d.path
      return ⟨op, path, d.value, d.origin⟩

end PatchOp

end GraphQuery
