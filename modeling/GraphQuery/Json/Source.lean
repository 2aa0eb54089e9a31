import GraphQuery.Json.Skip

/-!
# JSON text as a tree with faults

Text is read from left to right and a reader stops at the first fault it runs into; which one that
is depends on which parts the reader looks at. A `Source` is the value in a text together with the
faults, each where a reader would meet it. Whoever walks over a source from left to right and stops
at a fault behaves as if it read the text itself.

An entry of an object also says what becomes of a reader that passes over its value, because passing
over is more lenient than reading, and the text behind the entry is read in that case too.
-/

namespace GraphQuery

/-- How an object in text ends. -/
inductive ObjectEnd
  | closed
  /-- The object does not begin at all. -/
  | unopened (fault : Fault)
  /-- A key, or the comma before it, is at fault. -/
  | atKey (fault : Fault)
  /-- The colon behind this key is at fault. -/
  | afterKey (key : String) (fault : Fault)
  deriving DecidableEq, Repr

/-- One entry of an object: reading the value, and passing over it. -/
structure SourceEntry (α : Type) where
  key : String
  value : α
  passedOver : Option Fault

/-- A value in text, with the faults where a reader meets them. -/
inductive Source
  | fault (fault : Fault)
  | null
  | bool (value : Bool)
  | number (value : Number)
  | string (value : String)
  | array (items : List Source) (close : Option Fault)
  | object (entries : List (SourceEntry Source)) (close : ObjectEnd)

instance : Inhabited Source := ⟨.null⟩

namespace Source

/-- What a reader found: the value, and the rest of the text unless a fault stopped it. -/
abbrev Found := Source × Option (List Char)

/-- A value made from a part of the text that was read without or with a fault. -/
def found {α : Type} (make : α → Source) : Except Fault (α × List Char) → Found
  | .ok (a, rest) => (make a, some rest)
  | .error f => (.fault f, none)

/-- A word that stands for a value, its first letter already read. -/
def word (value : Source) (letters rest : List Char) : Found :=
  found (fun _ => value) ((readLetters letters rest).map fun rest => ((), rest))

/-- A number; one that is out of range is a fault, though the text goes on behind it. -/
def readNumber (cs : List Char) : Found :=
  match Numeral.read cs with
  | .error f => (.fault f, none)
  | .ok (n, rest) =>
    match n.value? with
    | some v => (.number v, some rest)
    | none => (.fault .numberOutOfRange, none)

mutual

/-- The value at the head of a text; `depth` more containers may be opened. -/
def readValue : Nat → Nat → List Char → Found
  | 0, _, _ => (.fault .recursionLimit, none)
  | fuel + 1, depth, cs =>
    match dropBlanks cs with
    | [] => (.fault .endInValue, none)
    | c :: rest =>
      if c = 'n' then word .null ['u', 'l', 'l'] rest
      else if c = 't' then word (.bool true) ['r', 'u', 'e'] rest
      else if c = 'f' then word (.bool false) ['a', 'l', 's', 'e'] rest
      else if c = '-' ∨ c.isDigit then readNumber (c :: rest)
      else if c = '"' then found .string (StringLiteral.read rest)
      else if c = '[' then
        if depth = 0 then (.array [] (some .recursionLimit), none)
        else
          let (items, close, rest) := readItems fuel (depth - 1) true rest
          (.array items close, rest)
      else if c = '\x7b' then
        if depth = 0 then (.object [] (.unopened .recursionLimit), none)
        else
          let (entries, close, rest) := readEntries fuel (depth - 1) true rest
          (.object entries close, rest)
      else (.fault .expectedValue, none)

/-- The items of a list up to its bracket or to a fault. -/
def readItems : Nat → Nat → Bool → List Char → List Source × Option Fault × Option (List Char)
  | 0, _, _, _ => ([], some .recursionLimit, none)
  | fuel + 1, depth, first, cs =>
    let item (cs : List Char) :=
      match readValue fuel depth cs with
      | (v, none) => ([v], none, none)
      | (v, some rest) =>
        let (items, close, rest) := readItems fuel depth false rest
        (v :: items, close, rest)
    match dropBlanks cs with
    | [] => ([], some .endInList, none)
    | c :: rest =>
      if c = ']' then ([], none, some rest)
      else if first then item (c :: rest)
      else if c = ',' then
        match dropBlanks rest with
        | [] => ([], some .endInValue, none)
        | ']' :: _ => ([], some .trailingComma, none)
        | rest => item rest
      else ([], some .expectedCommaOrBracket, none)

/-- The entries of an object up to its brace or to a fault. -/
def readEntries : Nat → Nat → Bool → List Char →
    List (SourceEntry Source) × ObjectEnd × Option (List Char)
  | 0, _, _, _ => ([], .unopened .recursionLimit, none)
  | fuel + 1, depth, first, cs =>
    let entry (cs : List Char) : List (SourceEntry Source) × ObjectEnd × Option (List Char) :=
      match StringLiteral.read cs with
      | .error f => ([], .atKey f, none)
      | .ok (key, rest) =>
        match dropBlanks rest with
        | [] => ([], .afterKey key .endInObject, none)
        | ':' :: text =>
          let (v, rest) := readValue fuel depth text
          let passed : Except Fault (List Char) := match rest with
            | some rest => .ok rest
            | none => skipValue text
          match passed with
          | .error f => ([⟨key, v, some f⟩], .closed, none)
          | .ok rest =>
            let (entries, close, rest) := readEntries fuel depth false rest
            (⟨key, v, none⟩ :: entries, close, rest)
        | _ => ([], .afterKey key .expectedColon, none)
    match dropBlanks cs with
    | [] => ([], .atKey .endInObject, none)
    | c :: rest =>
      if c = '\x7d' then ([], .closed, some rest)
      else if first then
        if c = '"' then entry rest else ([], .atKey .keyNotString, none)
      else if c = ',' then
        match dropBlanks rest with
        | [] => ([], .atKey .endInValue, none)
        | '"' :: rest => entry rest
        | '\x7d' :: _ => ([], .atKey .trailingComma, none)
        | _ => ([], .atKey .keyNotString, none)
      else ([], .atKey .expectedCommaOrBrace, none)

end

/-- Containers may be nested this deep. -/
def nestingLimit : Nat := 127

/-- The value at the head of a text, and the rest of the text unless a fault stopped the reader.
Every call consumes a character or hands the same text on once, so twice the length bounds them. -/
def read (text : String) : Found :=
  let cs := text.toList
  readValue (2 * cs.length + 2) nestingLimit cs

mutual

/-- An already parsed value, which has no faults. -/
def ofJson : Json → Source
  | .null => .null
  | .bool b => .bool b
  | .number n => .number n
  | .string s => .string s
  | .array items => .array (ofItems items) none
  | .object fields => .object (ofFields fields) .closed

def ofItems : List Json → List Source
  | [] => []
  | v :: rest => ofJson v :: ofItems rest

def ofFields : List (String × Json) → List (SourceEntry Source)
  | [] => []
  | (k, v) :: rest => ⟨k, ofJson v, none⟩ :: ofFields rest

end

/-- A fault and the place where it was met. -/
abbrev Located := JsonPath × Fault

/-- Put a step in front of a place. -/
def Located.under (step : JsonStep) (at' : Located) : Located := (step :: at'.1, at'.2)

/-- How an object's end shows to one who reads all of it. -/
def endOfObject : ObjectEnd → Except Located Unit
  | .closed => .ok ()
  | .unopened f => .error ([], f)
  | .atKey f => .error ([.unnamed], f)
  | .afterKey _ f => .error ([], f)

mutual

/-- The whole value, or the first fault in it. A repeated key keeps its place and takes the later
value. -/
def toJson : Source → Except Located Json
  | .fault f => .error ([], f)
  | .null => .ok .null
  | .bool b => .ok (.bool b)
  | .number n => .ok (.number n)
  | .string s => .ok (.string s)
  | .array items close =>
    match toItems 0 items with
    | .error e => .error e
    | .ok items => match close with
      | some f => .error ([], f)
      | none => .ok (.array items)
  | .object entries close =>
    match toFields [] entries with
    | .error e => .error e
    | .ok fields => match endOfObject close with
      | .error e => .error e
      | .ok () => .ok (.object fields)

def toItems (position : Nat) : List Source → Except Located (List Json)
  | [] => .ok []
  | s :: rest =>
    match toJson s with
    | .error e => .error (Located.under (.index position) e)
    | .ok v => (toItems (position + 1) rest).map (v :: ·)

def toFields (fields : List (String × Json)) :
    List (SourceEntry Source) → Except Located (List (String × Json))
  | [] => .ok fields
  | entry :: rest =>
    match toJson entry.value with
    | .error e => .error (Located.under (.key entry.key) e)
    | .ok v => toFields (Fields.insert fields entry.key v) rest

end

end Source

/-- A text that is one JSON value and nothing else. -/
def Json.parse (text : String) : Except Fault Json :=
  let (source, rest) := Source.read text
  match source.toJson with
  | .error (_, f) => .error f
  | .ok v =>
    if (dropBlanks (rest.getD [])).isEmpty then .ok v else .error .trailingCharacters

end GraphQuery
