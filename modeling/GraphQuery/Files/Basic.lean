import GraphQuery.Text.Split

/-!
# Files and paths

`Files` are the text files that a command can see. A path is read from the working directory, or from
the root if it starts with a slash; `Files.locate` follows it piece by piece to a `Place`, in which
no piece is blank, a dot, or a step back to where the way came from.
-/

namespace GraphQuery

/-- The names on the way from the working directory. Steps out of it are `..` in front, and `/` in
front stands for the root. -/
abbrev Place := List String

/-- Why an operation on a file fails. -/
inductive FileError
  | missing
  | alreadyThere
  | notFolder
  | isFolder
  | nameTooLong
  deriving DecidableEq, Repr

def FileError.message : FileError → String
  | missing => "No such file or directory (os error 2)"
  | alreadyThere => "File exists (os error 17)"
  | notFolder => "Not a directory (os error 20)"
  | isFolder => "Is a directory (os error 21)"
  | nameTooLong => "File name too long (os error 36)"

/-- Text files, and folders that need not hold any. A folder on the way to a file needs no entry. -/
structure Files where
  texts : List (Place × String)
  folders : List Place

/-- What stands at a place. -/
inductive FileEntry
  | file (text : String)
  | folder

namespace Place

def root : Place := ["/"]

/-- Where a path starts. -/
def start (path : String) : Place := if path.startsWith "/" then root else []

/-- The place is the working directory or encloses it, or is the root. -/
def isEnclosing (p : Place) : Bool := p == root || p.all (· == "..")

/-- One step back. -/
def parent (p : Place) : Place :=
  if p == root then root
  else if p.all (· == "..") then ".." :: p
  else p.dropLast

/-- Where a piece of a path leads: a blank piece and a dot lead nowhere else, `..` leads back. -/
def step (p : Place) (piece : String) : Place :=
  if piece = "" ∨ piece = "." then p
  else if piece = ".." then p.parent
  else p ++ [piece]

/-- The place that a path names, whether or not its folders are there. -/
def ofPath (path : String) : Place := (Text.split '/' path).foldl step (start path)

/-- The place is the working directory or lies in it. -/
def isInside (p : Place) : Bool := p.head? != some ".." && p.head? != some "/"

end Place

namespace Files

/-- Files from their paths and texts. -/
def ofTexts (texts : List (String × String)) : Files :=
  ⟨texts.map fun (path, text) => (Place.ofPath path, text), []⟩

/-- The files of the working directory with their paths. -/
def inside (f : Files) : List (String × String) :=
  (f.texts.filter fun (p, _) => p.isInside).map fun (p, text) => ("/".intercalate p, text)

/-- Every place that has an entry. -/
def places (f : Files) : List Place := f.texts.map Prod.fst ++ f.folders

def entry? (f : Files) (p : Place) : Option FileEntry :=
  if p.isEnclosing then some .folder
  else match f.texts.lookup p with
    | some text => some (.file text)
    | none => if f.places.any p.isPrefixOf then some .folder else none

/-- A name has at most 255 bytes. -/
def isTooLong (name : String) : Bool := decide (255 < name.utf8ByteSize)

/-- Follow the pieces of a path; only a folder has a way on. -/
def walk (f : Files) (here : Place) : List String → Except FileError Place
  | [] => .ok here
  | piece :: rest =>
    match f.entry? here with
    | none => .error .missing
    | some (.file _) => .error .notFolder
    | some .folder =>
      if isTooLong piece then .error .nameTooLong else f.walk (here.step piece) rest

/-- The place that a path leads to; nothing need stand there. The empty path leads nowhere, and a
path has fewer than 4096 bytes. -/
def locate (f : Files) (path : String) : Except FileError Place :=
  if path = "" then .error .missing
  else if 4096 ≤ path.utf8ByteSize then .error .nameTooLong
  else f.walk (Place.start path) (Text.split '/' path)

/-- What a path leads to. -/
def find? (f : Files) (path : String) : Option FileEntry :=
  match f.locate path with
  | .error _ => none
  | .ok p => f.entry? p

def isThere (f : Files) (path : String) : Bool := (f.find? path).isSome

def isFolder (f : Files) (path : String) : Bool :=
  match f.find? path with
  | some .folder => true
  | _ => false

/-- The text of a file. -/
def read (f : Files) (path : String) : Except FileError String := do
  match f.entry? (← f.locate path) with
  | none => .error .missing
  | some .folder => .error .isFolder
  | some (.file text) => .ok text

/-- The names in a folder, in ascending order. -/
def names (f : Files) (path : String) : List String :=
  match f.locate path with
  | .error _ => []
  | .ok p =>
    let below := f.places.filterMap fun q =>
      if p.isPrefixOf q then (q.drop p.length).head? else none
    (below.eraseDups.filter fun name => name != ".." && name != "/").mergeSort
      fun a b => decide (a ≤ b)

end Files

end GraphQuery
