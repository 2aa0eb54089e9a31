import GraphQuery.Files.Basic

/-!
# Writing files

`Files.makeFoldersFor` makes the folders on the way to a path and `Files.write` writes a file into a
folder that is there.
-/

namespace GraphQuery.Files

/-- The names in a path, outermost last: blank pieces and dots lead nowhere. -/
def steps (path : String) : List String :=
  ((Text.split '/' path).filter fun piece => piece != "" && piece != ".").reverse

/-- The pieces of steps from the outermost on. A blank piece at the end asks for a folder. -/
def folderPieces (steps : List String) : List String := steps.reverse ++ [""]

/-- Make one folder in a folder that is there. -/
def makeFolder (f : Files) (start : Place) (last : String) (above : List String) :
    Except FileError Files := do
  let here ← f.walk start (folderPieces above)
  if isTooLong last then .error .nameTooLong
  else if last = ".." then .error .alreadyThere
  else match f.entry? (here ++ [last]) with
    | some _ => .error .alreadyThere
    | none => .ok { f with folders := f.folders ++ [here ++ [last]] }

/-- The steps lead to a folder. -/
def leadsToFolder (f : Files) (start : Place) (steps : List String) : Bool :=
  (f.walk start (folderPieces steps)).toOption.isSome

/-- Make a folder and, where they are missing, the folders around it. A folder that is already there
is no failure. -/
def makeFolders (f : Files) (start : Place) : List String → Except FileError Files
  | [] => .ok f
  | last :: above =>
    match f.makeFolder start last above with
    | .ok f => .ok f
    | .error .missing => do
      let f ← f.makeFolders start above
      match f.makeFolder start last above with
      | .ok f => .ok f
      | .error e => if f.leadsToFolder start (last :: above) then .ok f else .error e
    | .error e => if f.leadsToFolder start (last :: above) then .ok f else .error e

/-- Make the folders on the way to a path. -/
def makeFoldersFor (f : Files) (path : String) : Except FileError Files :=
  f.makeFolders (Place.start path) (steps path).tail

/-- Put a text at a place. -/
def put (f : Files) (p : Place) (text : String) : Files :=
  if (f.texts.lookup p).isSome then
    { f with texts := f.texts.map fun (q, old) => (q, if q = p then text else old) }
  else { f with texts := f.texts ++ [(p, text)] }

/-- Write a text file, a new one or over an old one. A path that ends in a slash or in a dot can only
be a folder. -/
def write (f : Files) (path text : String) : Except FileError Files :=
  match (Text.split '/' path).reverse with
  | [] => .error .missing
  | last :: above => do
    let around := if last = "" then (above.dropWhile (· == "")).tail else above
    let here ← f.walk (Place.start path) (folderPieces around)
    if isTooLong last then .error .nameTooLong
    else if last = "" ∨ last = "." ∨ last = ".." then .error .isFolder
    else match f.entry? (here ++ [last]) with
      | some .folder => .error .isFolder
      | _ => .ok (f.put (here ++ [last]) text)

/-- The files of the working directory that are new or have another text than before. -/
def changes (before after : Files) : List (String × String) :=
  after.inside.filter fun (path, text) => before.inside.lookup path != some text

end GraphQuery.Files
