/-!
# Options on a command line

Arguments are options with their values and no others. An option is written with two dashes and its
long name, or with one dash and a letter; letters may be joined. A value follows as the next
argument, or in the same one: behind `=`, or right behind a letter. An option of many values takes
all arguments up to the next one that starts with a dash, unless its value is in the same argument.
-/

namespace GraphQuery.CommandLine

/-- How many values an option takes. -/
inductive Arity
  | flag
  | one
  | many
  deriving DecidableEq, Repr

/-- An option of a command. One that does not take many values may stand only once. -/
structure OptionSpec where
  name : String
  letter : Option Char
  arity : Arity
  deriving DecidableEq, Repr

/-- An option that was given, with its values. -/
structure Given where
  name : String
  values : List String
  deriving DecidableEq, Repr

/-- What an argument is by its dashes. -/
inductive Argument
  /-- Two dashes alone: no option comes behind them. -/
  | stop
  | long (name : List Char) (value : Option (List Char))
  | letters (letters : List Char)
  | bare (text : String)

/-- A text before and behind the first equals sign. -/
def splitEquals : List Char → List Char × Option (List Char)
  | [] => ([], none)
  | c :: rest =>
    if c = '=' then ([], some rest)
    else let (name, value) := splitEquals rest; (c :: name, value)

def Argument.ofText (text : String) : Argument :=
  match text.toList with
  | ['-', '-'] => stop
  | '-' :: '-' :: rest => let (name, value) := splitEquals rest; long name value
  | '-' :: c :: rest => letters (c :: rest)
  | _ => bare text

def Argument.isBare (text : String) : Bool :=
  match ofText text with
  | bare _ => true
  | _ => false

/-- Options read so far. -/
structure Reading where
  given : List Given
  /-- An option that still takes values, with those it has. -/
  pending : Option (OptionSpec × List String)
  stopped : Bool

namespace Reading

def start : Reading := ⟨[], none, false⟩

/-- Enter an option with all its values. -/
def give (r : Reading) (spec : OptionSpec) (values : List String) : Reading :=
  { r with given := r.given ++ [⟨spec.name, values⟩], pending := none }

/-- Let the pending option have no more values; it needs at least one. -/
def settle (r : Reading) : Option Reading :=
  match r.pending with
  | none => some r
  | some (_, []) => none
  | some (spec, values) => some (r.give spec values)

/-- Take an argument as a value of the pending option. -/
def takeValue (r : Reading) (text : String) : Option Reading :=
  match r.pending with
  | none => none
  | some (spec, values) =>
    if spec.arity = .many then some { r with pending := some (spec, values ++ [text]) }
    else some (r.give spec [text])

/-- Take an option, perhaps with a value in the same argument. -/
def takeOption (r : Reading) (spec : OptionSpec) (value : Option (List Char)) : Option Reading :=
  match spec.arity, value with
  | .flag, none => some (r.give spec [])
  | .flag, some _ => none
  | _, some cs => some (r.give spec [String.ofList cs])
  | _, none => some { r with pending := some (spec, []) }

/-- Take joined letters: flags, and then perhaps an option with a value. -/
def takeLetters (specs : List OptionSpec) : Reading → List Char → Option Reading
  | r, [] => some r
  | r, c :: rest => do
    let spec ← specs.find? fun spec => spec.letter == some c
    if spec.arity = .flag then
      let r ← r.takeOption spec none
      takeLetters specs r rest
    else match rest with
      | [] => r.takeOption spec none
      | '=' :: value => r.takeOption spec (some value)
      | value => r.takeOption spec (some value)

/-- Take the next argument. -/
def next (specs : List OptionSpec) (r : Reading) (text : String) : Option Reading :=
  if r.stopped then none
  else match Argument.ofText text with
    | .bare text => r.takeValue text
    | .stop => do
      let r ← r.settle
      return { r with stopped := true }
    | .long name value => do
      let r ← r.settle
      let spec ← specs.find? fun spec => spec.name.toList == name
      r.takeOption spec value
    | .letters letters => do
      let r ← r.settle
      takeLetters specs r letters

end Reading

/-- The times an option was given. -/
def countOf (given : List Given) (name : String) : Nat := (given.filter (·.name == name)).length

/-- The options in the arguments, in order, or nothing if the arguments are refused. The flag says
whether the arguments close the list of options. -/
def readOptions (specs : List OptionSpec) (arguments : List String) : Option (List Given × Bool) := do
  let r ← arguments.foldlM (Reading.next specs) Reading.start
  let r ← r.settle
  if specs.all fun spec => spec.arity == .many || decide (countOf r.given spec.name ≤ 1) then
    return (r.given, r.stopped)
  else none

/-- All values of an option. -/
def valuesOf (given : List Given) (name : String) : List String :=
  (given.filter (·.name == name)).flatMap Given.values

/-- The value of an option that takes one. -/
def valueOf? (given : List Given) (name : String) : Option String := (valuesOf given name).head?

/-- The flag is given. -/
def isGiven (given : List Given) (name : String) : Bool := given.any (·.name == name)

end GraphQuery.CommandLine
