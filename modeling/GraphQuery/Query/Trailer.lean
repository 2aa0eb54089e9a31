import GraphQuery.Query.Expr
import GraphQuery.Query.Layout
import GraphQuery.Text.Duration

/-!
# What a statement returns

`ReturnMode` says what comes back for each affected record; `Trailer` is the end of every statement
that writes: `RETURN`, `TIMEOUT` and `PARALLEL`, in this order.
-/

namespace GraphQuery

/-- What comes back for an affected record. -/
inductive ReturnMode
  | none
  /-- The record before the statement; null if there was none. -/
  | before
  | after
  /-- The patch that leads from the one to the other. -/
  | diff
  | value (content : Expr)

namespace ReturnMode

/-- A mode by name, in upper or lower case. -/
def ofName? (name : String) : Option ReturnMode :=
  let lower := String.ofList (name.toList.map Char.toLower)
  if lower = "none" then some none
  else if lower = "before" then some before
  else if lower = "after" then some after
  else if lower = "diff" then some diff
  else Option.none

/-- What is wrong with a name that is no mode. -/
def unknownMessage (name : String) : String :=
  "unknown return mode `" ++ name ++ "` (expected none, before, after or diff)"

def layout : ReturnMode → Layout
  | none => [.text " RETURN NONE"]
  | before => [.text " RETURN BEFORE"]
  | after => [.text " RETURN AFTER"]
  | diff => [.text " RETURN DIFF"]
  | value e => [.text " RETURN VALUE ", .term e.term]

def render : ReturnMode → Rendering String
  | none => pure " RETURN NONE"
  | before => pure " RETURN BEFORE"
  | after => pure " RETURN AFTER"
  | diff => pure " RETURN DIFF"
  | value e => do return " RETURN VALUE " ++ (← e.render)

/-- The shape of a patch as it comes back; the values in it may have any shape. -/
def diffType : Descriptor :=
  .list (.object [("op", .string), ("path", .string), ("from", .option .string)])

/-- The shape of one record's result, or of the list of all results. -/
def listUnless (only : Bool) (item : Descriptor) : Descriptor := if only then item else .list item

/-- The shape of the result for rows of the given shape. -/
def output (mode : ReturnMode) (row : Descriptor) (only : Bool) : Descriptor :=
  match mode with
  | none => if only then .unionOf [.null, .absent] else .list .never
  | before => listUnless only (.unionOf [row, .null])
  | after => listUnless only row
  | diff => listUnless only diffType
  | value e => listUnless only e.type

end ReturnMode

/-- `TIMEOUT` and `PARALLEL`. -/
def Layout.limits (timeout : Option Duration) (parallel : Bool) : Layout :=
  (match timeout with
    | some d => [.text (" TIMEOUT " ++ d.render)]
    | none => []) ++ Layout.textIf parallel " PARALLEL"

/-- The text of `Layout.limits`. -/
def Layout.limitsText (timeout : Option Duration) (parallel : Bool) : String :=
  (match timeout with
    | some d => " TIMEOUT " ++ d.render
    | none => "") ++ if parallel then " PARALLEL" else ""

/-- The end of a statement that writes. -/
structure Trailer where
  mode : Option ReturnMode
  timeout : Option Duration
  parallel : Bool

namespace Trailer

def empty : Trailer := ⟨none, none, false⟩

def setMode (t : Trailer) (mode : ReturnMode) : Trailer := { t with mode := some mode }

def setTimeout (t : Trailer) (d : Duration) : Trailer := { t with timeout := some d }

def setParallel (t : Trailer) : Trailer := { t with parallel := true }

def layout (t : Trailer) : Layout :=
  (match t.mode with
    | some mode => mode.layout
    | none => []) ++ Layout.limits t.timeout t.parallel

def render (t : Trailer) : Rendering String := do
  let mode ← match t.mode with
    | some mode => mode.render
    | none => pure ""
  return mode ++ Layout.limitsText t.timeout t.parallel

/-- The shape of the result, given what comes back if nothing is said. -/
def output (t : Trailer) (default : ReturnMode) (row : Descriptor) (only : Bool) : Descriptor :=
  (t.mode.getD default).output row only

/-- Results are parsed, except patches: the values in them may have any shape. -/
def checksOutput (t : Trailer) : Bool :=
  match t.mode with
  | some .diff => false
  | _ => true

end Trailer

end GraphQuery
