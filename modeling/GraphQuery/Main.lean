import GraphQuery.CommandLine.Outcome

/-!
# The command line program

`graph` prints or writes the graph of a schema, `validate` checks documents against a table. Paths
are read as they stand. Patterns are matched against the file names that come in on the standard
input, one on a line.
-/

namespace GraphQuery.CommandLine

/-- The usage of the program. -/
def usage : String :=
  "usage: graph -s FILE... [-o FILE] [-v]\n" ++
  "       validate -s FILE... -i FILE... -t TABLE [--ndjson] [--json-pointer POINTER]\n" ++
  "                [--as-input] [--no-split] [-v]\n" ++
  "Names for patterns to match are read from the standard input."

/-- The lines that are left of an input. -/
partial def readLines (input : IO.FS.Stream) : IO (List String) := do
  let line ← input.getLine
  if line.isEmpty then return []
  return (line.dropEndWhile fun c => c == '\n' || c == '\r').toString :: (← readLines input)

/-- The texts of those paths that can be read. -/
def gather (paths : List String) : IO (List (String × String)) :=
  paths.filterMapM fun (path : String) => do
    try return some (path, ← IO.FS.readFile path) catch _ => return none

/-- Write a text file and make the folders on the way. -/
def save (path text : String) : IO Unit := do
  let folder := "/".intercalate (Text.split '/' path).dropLast
  unless folder.isEmpty do IO.FS.createDirAll folder
  IO.FS.writeFile path text

end GraphQuery.CommandLine

open GraphQuery GraphQuery.CommandLine in
/-- Answer the request in the arguments. -/
def main (arguments : List String) : IO UInt32 := do
  match Request.ofArguments arguments with
  | none =>
    IO.eprintln usage
    return 2
  | some request =>
    let (patterns, paths) := request.sources.partition FilePattern.isMeant
    let names ← if patterns.isEmpty then pure [] else readLines (← IO.getStdin)
    let outcome := Outcome.ofRequest (Files.ofTexts (← gather (paths ++ names).eraseDups)) request
    if let some path := request.target? then
      if outcome.code = 0 then
        if let .ok text := outcome.files.read path then save path text
    IO.print outcome.output
    IO.eprint outcome.report
    return outcome.code.toUInt32
