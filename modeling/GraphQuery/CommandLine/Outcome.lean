import GraphQuery.CommandLine.Request
import GraphQuery.Descriptor.Parse
import GraphQuery.Files.Search
import GraphQuery.Files.Write
import GraphQuery.Schema.Database

/-!
# Outcomes

What comes of a request on given files: an exit code, the two texts printed, and the files as they
are left. Files are read in the order in which they are named, and the first failure ends the
request; only documents of the wrong shape are collected, to be reported together.
-/

namespace GraphQuery.CommandLine

/-- Why a request fails. -/
inductive Failure
  | pattern (error : PatternError)
  | noMatch (pattern : String)
  | unreadableSchema (path : String) (error : FileError)
  | badSchema (path : String) (error : DecodeError)
  | undeclared (table : String)
  | unreadableSource (path : String) (error : FileError)
  | badSource (path : String) (error : SourceFault)
  | mismatches (count checked : Nat) (table : String)
  | noFolder (error : FileError)
  | unwritable (path : String) (error : FileError)

def Failure.message : Failure → String
  | pattern e => e.message
  | noMatch p => "glob pattern matched no files: " ++ p
  | unreadableSchema path e => "failed to read declaration file " ++ path ++ ": " ++ e.message
  | badSchema path e => "invalid declaration file " ++ path ++ ": at JSON path " ++ e.pathText ++
      " → " ++ e.message
  | undeclared table => "table `" ++ table ++ "` is not declared"
  | unreadableSource path e => "failed to read source file " ++ path ++ ": " ++ e.message
  | badSource path e => "failed to parse JSON source file " ++ path ++ ": " ++ e.message
  | mismatches count checked table => toString count ++ " of " ++ toString checked ++
      " document(s) do not match `" ++ table ++ "`"
  | noFolder e => e.message
  | unwritable path e => "failed to write " ++ path ++ ": " ++ e.message

/-- The paths that a path or a pattern stands for. A path stands for itself, and a pattern must fit
some file. -/
def expand (files : Files) (text : String) : Except Failure (List String) :=
  if FilePattern.isMeant text then
    match FilePattern.read text with
    | .error e => .error (.pattern e)
    | .ok pattern => match files.search pattern with
      | [] => .error (.noMatch text)
      | paths => .ok paths
  else .ok [text]

/-- The paths of several paths and patterns. -/
def expandAll (files : Files) (texts : List String) : Except Failure (List String) :=
  (texts.mapM (expand files)).map List.flatten

/-- The declarations in a file. -/
def readDeclarations (files : Files) (path : String) : Except Failure (List Declaration) := do
  let source ← (files.read path).mapError (Failure.unreadableSchema path)
  (Declaration.Decode.declarations.ofText source).mapError (Failure.badSchema path)

/-- The schema that several files declare together. -/
def readSchema (files : Files) (texts : List String) : Except Failure Database := do
  let declarations ← (← expandAll files texts).mapM (readDeclarations files)
  return .ofDeclarations declarations.flatten

/-- A document to check and the file that holds it. -/
structure Row where
  path : String
  value : Json

/-- The rows that a document holds. -/
def rowsOf (noSplit : Bool) (path : String) : Json → List Row
  | .array items => if noSplit then [⟨path, .array items⟩] else items.map (Row.mk path)
  | v => [⟨path, v⟩]

/-- The rows of the documents in a file. -/
def readRows (files : Files) (r : CheckRequest) (path : String) : Except Failure (List Row) := do
  let source ← (files.read path).mapError (Failure.unreadableSource path)
  let documents ← (Documents.split r.form r.pointer source).mapError (Failure.badSource path)
  return documents.flatMap (rowsOf r.noSplit path)

/-- A row of the wrong shape and its number among all rows. -/
structure Mismatch where
  path : String
  number : Nat
  error : TypeError

def Mismatch.line (m : Mismatch) : String :=
  "✗ " ++ m.path ++ " #" ++ toString m.number ++ ": " ++ m.error.message ++ "\n"

/-- The rows of the wrong shape; the first row has the number zero. -/
def mismatches (shape : Descriptor) (rows : List Row) : List Mismatch :=
  rows.zipIdx.filterMap fun (row, number) =>
    match shape.parse row.value with
    | .ok _ => none
    | .error e => some ⟨row.path, number, e⟩

/-- What comes of a request. -/
structure Outcome where
  code : UInt8
  output : String
  report : String
  files : Files

namespace Outcome

/-- A failed request leaves the files as they are. -/
def failed (files : Files) (report : String) (e : Failure) : Outcome :=
  ⟨1, "", report ++ "error: " ++ e.message ++ "\n", files⟩

/-- The outcome of steps that may fail. -/
def ofExcept (files : Files) : Except Failure Outcome → Outcome
  | .ok outcome => outcome
  | .error e => failed files "" e

/-- Print the graph of a schema, or write it without a line end. -/
def graph (files : Files) (r : GraphRequest) : Except Failure Outcome := do
  let text := (← readSchema files r.schema).graph.encode.pretty
  match r.out with
  | none => return ⟨0, text ++ "\n", "", files⟩
  | some path =>
    let withFolders ← (files.makeFoldersFor path).mapError Failure.noFolder
    let written ← (withFolders.write path text).mapError (Failure.unwritable path)
    return ⟨0, "", "", written⟩

/-- Report the rows of the wrong shape. -/
def validate (files : Files) (r : CheckRequest) : Except Failure Outcome := do
  let db ← readSchema files r.schema
  match db.declaration? r.table with
  | none => throw (.undeclared r.table)
  | some d =>
    let shape := if r.asInput then d.inputType else d.recordType
    let rows := (← (← expandAll files r.inputs).mapM (readRows files r)).flatten
    match mismatches shape rows with
    | [] => return ⟨0, "", "✓ " ++ toString rows.length ++ " document(s) match `" ++ r.table ++
        "`\n", files⟩
    | found =>
      return failed files (String.join (found.map Mismatch.line))
        (.mismatches found.length rows.length r.table)

/-- What comes of a request on files. -/
def ofRequest (files : Files) : Request → Outcome
  | .graph r => ofExcept files (graph files r)
  | .validate r => ofExcept files (validate files r)

end Outcome

end GraphQuery.CommandLine
