import GraphQuery.Decode.Reader
import GraphQuery.Descriptor.Encode

/-!
# Reading descriptors

A descriptor is read from an object with the keys `kind` and `of`, or from a sequence of the two. The
parts under `of` can only be read when the kind is known, so they are held back when they come first.
Other keys are passed over. The descriptor is taken as it is written: its unions are not flattened.
-/

namespace GraphQuery.Descriptor.Decode

open GraphQuery.Decode

/-- What a descriptor is called in messages. -/
def typeName : String := "adjacently tagged enum Type"

/-- The kind of the given position in `Kind.all`. -/
def kindAt (position : Nat) : Kind := Kind.all[position]?.getD .never

/-- A kind by name. -/
def kindName (origin : Origin) (s : Source) : Except DecodeError Kind :=
  (identifier Kind.names origin s).map kindAt

/-- Null behind a kind that is written as the only key of an object. -/
def emptyParts (s : Source) : Except DecodeError Unit :=
  match s with
  | .null => .ok ()
  | s => unexpected "unit" s

/-- How a text that holds neither a string nor an object shows where a kind is due: by its first
character, unless that begins a string. -/
def noKindInText (s : Source) : DecodeCause :=
  match met s with
  | .error .endInValue => .fault .endInValue
  | .error .endInString => .fault .endInString
  | .error .invalidEscape => .fault .invalidEscape
  | .error .controlCharacter => .fault .controlCharacter
  | .error .loneSurrogate => .fault .loneSurrogate
  | .error .endOfHexEscape => .fault .endOfHexEscape
  | _ => .fault .expectedValue

/-- The kind written as an object with one key, in text. -/
def kindInTextObject (entries : List (SourceEntry Source)) (close : ObjectEnd) :
    Except DecodeError Kind :=
  match entries, close with
  | [], .unopened f => fail (.fault f)
  | [], .atKey f => fail (.fault f)
  | [], .closed => fail (.fault .expectedValue)
  | [], .afterKey key f => do
    let _ ← kindName .text (.string key)
    fail (.fault f)
  | entry :: rest, close => do
    let kind ← kindName .text (.string entry.key)
    (emptyParts entry.value).mapError (DecodeError.under (.key entry.key))
    match rest, close with
    | [], .closed => return kind
    | [], .atKey .endInObject => fail (.fault .endInObject)
    | _, _ => fail (.fault .expectedValue)

/-- The value under `kind`: a name, or an object whose only key is the name. Behind the name stands
null; in a part that was held back and is read once an empty object will do. -/
def kind (origin : Origin) (s : Source) : Except DecodeError Kind :=
  match origin, s with
  | _, .string name => kindName origin (.string name)
  | .text, .object entries close => kindInTextObject entries close
  | .text, s => fail (noKindInText s)
  | origin, .object [entry] _ => do
    let kind ← kindName origin (.string entry.key)
    match origin, entry.value with
    | .buffer, .object [] _ => return kind
    | _, s => (emptyParts s).mapError (DecodeError.under (.key entry.key))
    return kind
  | _, .object _ _ => fail (.wrongValue .map "map with a single key")
  | _, s => unexpected "string or map" s

/-- A kind without parts accepts null under `of`. Anything may stand there as far as reading goes,
so a container that is nested too deeply is refused before its form is. -/
def unitParts (variant : String) (t : Descriptor) (s : Source) : Except DecodeError Descriptor :=
  match s with
  | .null => .ok t
  | .array [] (some .recursionLimit) => fail (.fault .recursionLimit)
  | .object [] (.unopened .recursionLimit) => fail (.fault .recursionLimit)
  | s => unexpected ("unit variant Type::" ++ variant) s

/-- A constant: its form tells which. -/
def literalParts (s : Source) : Except DecodeError Descriptor := do
  buffer s
  match s with
  | .bool b => return literal (.bool b)
  | .number n => match n.toDouble? with
    | some x => return literal (.number x)
    | none => fail (.noForm "Literal")
  | .string s => return literal (.string s)
  | _ => fail (.noForm "Literal")

/-- The ways to read the parts under `of` that are descriptors themselves. -/
structure Parts where
  one : Origin → Except DecodeError Descriptor
  items : Origin → Except DecodeError (List Descriptor)
  fields : Origin → Except DecodeError (List (String × Descriptor))

/-- The items of an array: a shape for each position if they can be read so, else one for all. -/
def arrayParts (parts : Parts) (s : Source) : Except DecodeError Descriptor := do
  buffer s
  match parts.items .shared with
  | .ok items => return tuple items
  | .error _ => match parts.one .shared with
    | .ok item => return list item
    | .error _ => fail (.noForm "ArrayShape")

/-- The descriptor of a kind whose parts are `s`. -/
def withParts (origin : Origin) (kind : Kind) (s : Source) (parts : Parts) :
    Except DecodeError Descriptor :=
  match kind with
  | .string => unitParts "String" string s
  | .number => unitParts "Number" number s
  | .bool => unitParts "Bool" bool s
  | .null => unitParts "Null" null s
  | .none => unitParts "None" absent s
  | .never => unitParts "Never" never s
  | .date => unitParts "Date" date s
  | .uuid => unitParts "Uuid" uuid s
  | .literal => literalParts s
  | .option => (parts.one origin).map option
  | .record => (GraphQuery.Decode.option GraphQuery.Decode.string origin s).map record
  | .object => (parts.fields origin).map object
  | .array => arrayParts parts s
  | .union => (parts.items origin).map union

/-- The descriptor of a kind that comes without `of`. -/
def withoutParts : Kind → Except DecodeError Descriptor
  | .string => .ok string
  | .number => .ok number
  | .bool => .ok bool
  | .null => .ok null
  | .none => .ok absent
  | .never => .ok never
  | .date => .ok date
  | .uuid => .ok uuid
  | .record => .ok (record none)
  | _ => fail (.missingField "of")

/-- The rest of an object once the descriptor is read: neither key may come again. -/
def noMoreKeys (close : ObjectEnd) : List (SourceEntry Source) → Except DecodeError Unit
  | [] =>
    match close with
    | .afterKey key f =>
      if key = "kind" ∨ key = "of" then fail (.duplicateField key) else fail (.fault f)
    | close => endOfObject close
  | entry :: rest =>
    if entry.key = "kind" ∨ entry.key = "of" then fail (.duplicateField entry.key)
    else match entry.passedOver with
      | some f => .error (.under (.key entry.key) (.here (.fault f)))
      | none => noMoreKeys close rest

/-- The kind that follows parts that were held back, and the entries behind it. -/
def kindBehind (origin : Origin) (close : ObjectEnd) :
    List (SourceEntry Source) → Except DecodeError (Kind × List (SourceEntry Source))
  | [] =>
    match close with
    | .afterKey key f => if key = "of" then fail (.duplicateField key) else fail (.fault f)
    | close => (endOfObject close).bind fun _ => fail (.missingField "kind")
  | entry :: rest =>
    if entry.key = "kind" then
      match kind origin entry.value with
      | .error e => .error (e.under (.key "kind"))
      | .ok k => .ok (k, rest)
    else if entry.key = "of" then fail (.duplicateField "of")
    else match entry.passedOver with
      | some f => .error (.under (.key entry.key) (.here (.fault f)))
      | none => kindBehind origin close rest

/-- Read one part and then the rest of the object. -/
def thenRest (close : ObjectEnd) (t : Except DecodeError Descriptor)
    (rest : List (SourceEntry Source)) : Except DecodeError Descriptor := do
  let t ← t
  noMoreKeys close rest
  return t

mutual

/-- Read a descriptor. -/
def decode (origin : Origin) : Source → Except DecodeError Descriptor
  | .object entries close => fromEntries origin close entries
  | .array [] close => do
    endOfList close
    fail (.wrongLength 0 typeName)
  | .array [first] close => do
    let _ ← (kindName origin first).mapError (DecodeError.under (.index 0))
    endOfList close
    fail (.wrongLength 1 typeName)
  | .array (first :: second :: rest) close => do
    let k ← (kindName origin first).mapError (DecodeError.under (.index 0))
    let t ← (withParts origin k second
      ⟨fun o => decode o second, fun o => decodeList o second, fun o => decodeObject o second⟩).mapError
        (DecodeError.under (.index 1))
    surplus origin 2 rest close
    return t
  | s => unexpected typeName s

/-- Read the entries of an object whose kind is not known yet. -/
def fromEntries (origin : Origin) (close : ObjectEnd) :
    List (SourceEntry Source) → Except DecodeError Descriptor
  | [] =>
    match close with
    | .afterKey _ f => fail (.fault f)
    | close => (endOfObject close).bind fun _ => fail (.missingField "kind")
  | entry :: rest =>
    if entry.key = "kind" then
      match kind origin entry.value with
      | .error e => .error (e.under (.key "kind"))
      | .ok k => ofKind origin close k rest
    else if entry.key = "of" then
      match buffer entry.value with
      | .error e => .error (e.under (.key "of"))
      | .ok () =>
        match kindBehind origin close rest with
        | .error e => .error e
        | .ok (k, behind) =>
          thenRest close
            ((withParts .buffer k entry.value
              ⟨fun o => decode o entry.value, fun o => decodeList o entry.value,
                fun o => decodeObject o entry.value⟩).mapError DecodeError.whole) behind
    else match entry.passedOver with
      | some f => .error (.under (.key entry.key) (.here (.fault f)))
      | none => fromEntries origin close rest

/-- Read the entries of an object whose kind is known. -/
def ofKind (origin : Origin) (close : ObjectEnd) (k : Kind) :
    List (SourceEntry Source) → Except DecodeError Descriptor
  | [] =>
    match close with
    | .afterKey key f => if key = "kind" then fail (.duplicateField key) else fail (.fault f)
    | close => (endOfObject close).bind fun _ => withoutParts k
  | entry :: rest =>
    if entry.key = "kind" then fail (.duplicateField "kind")
    else if entry.key = "of" then
      thenRest close
        ((withParts origin k entry.value
          ⟨fun o => decode o entry.value, fun o => decodeList o entry.value,
            fun o => decodeObject o entry.value⟩).mapError (DecodeError.under (.key "of"))) rest
    else match entry.passedOver with
      | some f => .error (.under (.key entry.key) (.here (.fault f)))
      | none => ofKind origin close k rest

/-- Read a list of descriptors. -/
def decodeList (origin : Origin) : Source → Except DecodeError (List Descriptor)
  | .array items close => do
    let ts ← decodeItems origin 0 items
    endOfList close
    return ts
  | s => unexpected "a sequence" s

def decodeItems (origin : Origin) (position : Nat) :
    List Source → Except DecodeError (List Descriptor)
  | [] => .ok []
  | s :: rest =>
    match decode origin s with
    | .error e => .error (e.under (.index position))
    | .ok t => (decodeItems origin (position + 1) rest).map (t :: ·)

/-- Read named descriptors; a repeated name keeps its place and takes the later descriptor. -/
def decodeObject (origin : Origin) : Source → Except DecodeError (List (String × Descriptor))
  | .object entries close => do
    let fields ← decodeFields origin [] entries
    endOfObject close
    return fields
  | s => unexpected "a map" s

def decodeFields (origin : Origin) (fields : List (String × Descriptor)) :
    List (SourceEntry Source) → Except DecodeError (List (String × Descriptor))
  | [] => .ok fields
  | entry :: rest =>
    match decode origin entry.value with
    | .error e => .error (e.under (.key entry.key))
    | .ok t => decodeFields origin (Fields.insert fields entry.key t) rest

end

/-- Read a descriptor. -/
def descriptor : Decoder Descriptor := decode

/-- Read the fields of a declaration. -/
def fields : Decoder (List (String × Descriptor)) := decodeObject

end GraphQuery.Descriptor.Decode
