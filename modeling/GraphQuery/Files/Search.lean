import GraphQuery.Files.Basic
import GraphQuery.Files.Pattern

/-!
# Searching files

`Files.search` lists the paths that fit a pattern. What a folder holds comes in the order of names,
and a folder before what it holds. A dot at the start of a name means nothing to a wildcard.
-/

namespace GraphQuery.Files

/-- The path is a way to say the working directory. -/
def isHere (path : String) : Bool :=
  match Text.split '/' path with
  | "." :: rest => rest.all fun piece => piece == "" || piece == "."
  | _ => false

/-- A path and a name behind it. -/
def join (path name : String) : String :=
  if path = "" ∨ path.endsWith "/" then path ++ name else path ++ "/" ++ name

/-- The path of a name in a folder; names in the working directory stand alone. -/
def child (path name : String) : String := if isHere path then name else join path name

/-- Everything below a folder as paths and names, down to a depth. -/
def below (f : Files) : Nat → String → List (String × String)
  | 0, _ => []
  | depth + 1, path =>
    if f.isFolder path then
      (f.names path).flatMap fun name =>
        (child path name, name) :: f.below depth (child path name)
    else []

/-- No file lies deeper. -/
def depth (f : Files) : Nat := (f.places.map List.length).foldl max 0 + 1

/-- The ways up and back to itself that a folder has; only a name that starts with a dot fits one. -/
def dotNames (ws : List Wildcard) : List String :=
  match ws with
  | .char '.' :: _ => ["..", "."].filter fun name => Wildcard.fits ws name.toList
  | _ => []

/-- The paths that continue a path by names of a pattern. -/
def follow (f : Files) : List PatternName → String → List String
  | [], path => [path]
  | .exactly name :: rest, path =>
    let next := child path name
    let found := if name = "." ∨ name = ".." then f.isFolder path else f.isThere next
    if found then f.follow rest next else []
  | .shaped ws :: rest, path =>
    if f.isFolder path then
      ((dotNames ws).flatMap fun name => f.follow rest (join path name)) ++
        (f.names path).flatMap fun name =>
          if Wildcard.fits ws name.toList then f.follow rest (child path name) else []
    else []
  | .anyFolders :: rest, path =>
    match rest with
    | [] => ((f.below f.depth path).map Prod.fst).filter f.isFolder
    | next :: rest => (f.below f.depth path).flatMap fun (path, name) =>
      if next.fits name then f.follow rest path else []

/-- The paths that fit a pattern. -/
def search (f : Files) (pattern : FilePattern) : List String :=
  let paths := f.follow pattern.names (if pattern.fromRoot then "/" else ".")
  if pattern.foldersOnly then paths.filter f.isFolder else paths

end GraphQuery.Files
