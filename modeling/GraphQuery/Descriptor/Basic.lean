import GraphQuery.Json.Basic

/-!
# Descriptors

A `Descriptor` describes the shape of a value. A field that is missing has the absent value, which is
not JSON's null. `Descriptor.union` is the constructor for alternatives: it flattens one level of
nested unions, drops what nothing matches, and keeps of equal alternatives the first.
-/

namespace GraphQuery

/-- A constant that a value may be required to equal. -/
inductive Literal
  | bool (value : Bool)
  | number (value : Double)
  | string (value : String)
  deriving DecidableEq

namespace Literal

/-- Equal as constants: the two zeros are one number. -/
def same : Literal → Literal → Bool
  | bool a, bool b => a == b
  | number a, number b => a.same b
  | string a, string b => a == b
  | _, _ => false

def toJson : Literal → Json
  | bool b => .bool b
  | number x => .number (.float x)
  | string s => .string s

/-- The value equals the constant; a number is compared as a double. -/
def matchesValue : Literal → Json → Bool
  | bool a, .bool b => a == b
  | number a, .number n => match n.toDouble? with
    | some b => a.same b
    | none => false
  | string a, .string b => a == b
  | _, _ => false

end Literal

/-- The shape of a value. -/
inductive Descriptor
  | string
  | number
  | bool
  | null
  /-- The absent value. -/
  | absent
  /-- No value at all. -/
  | never
  /-- An RFC 3339 datetime in a string. -/
  | date
  | uuid
  | literal (value : Literal)
  | option (inner : Descriptor)
  /-- A record reference, of one table if it is given. -/
  | record (table : Option String)
  /-- Named fields in their declared order. -/
  | object (fields : List (String × Descriptor))
  /-- Any number of items of one shape. -/
  | list (item : Descriptor)
  /-- One shape for each position. -/
  | tuple (items : List Descriptor)
  | union (alternatives : List Descriptor)

/-- What kind of descriptor it is. -/
inductive Tag
  | string | number | bool | null | none | never | datetime | uuid | literal | option | record
  | object | array | union
  deriving DecidableEq, Repr

def Tag.name : Tag → String
  | string => "string"
  | number => "number"
  | bool => "bool"
  | null => "null"
  | none => "none"
  | never => "never"
  | datetime => "datetime"
  | uuid => "uuid"
  | literal => "literal"
  | option => "option"
  | record => "record"
  | object => "object"
  | array => "array"
  | union => "union"

namespace Descriptor

instance : Inhabited Descriptor := ⟨never⟩

def tag : Descriptor → Tag
  | string => .string
  | number => .number
  | bool => .bool
  | null => .null
  | absent => .none
  | never => .never
  | date => .datetime
  | uuid => .uuid
  | literal _ => .literal
  | option _ => .option
  | record _ => .record
  | object _ => .object
  | list _ => .array
  | tuple _ => .array
  | union _ => .union

def isAbsent : Descriptor → Bool
  | absent => true
  | _ => false

def isNull : Descriptor → Bool
  | null => true
  | _ => false

mutual

/-- Equality of descriptors: the order of an object's fields does not count, nor the sign of zero. -/
def same : Descriptor → Descriptor → Bool
  | string, string | number, number | bool, bool | null, null | absent, absent => true
  | never, never | date, date | uuid, uuid => true
  | literal a, literal b => a.same b
  | option a, option b => same a b
  | record a, record b => a == b
  | object fs, object gs => fs.length == gs.length && sameFields fs gs
  | list a, list b => same a b
  | tuple as, tuple bs => sameItems as bs
  | union as, union bs => sameItems as bs
  | _, _ => false

def sameFields : List (String × Descriptor) → List (String × Descriptor) → Bool
  | [], _ => true
  | (name, t) :: rest, gs =>
    (match gs.lookup name with
      | some u => same t u
      | none => false) && sameFields rest gs

def sameItems : List Descriptor → List Descriptor → Bool
  | [], [] => true
  | a :: as, b :: bs => same a b && sameItems as bs
  | _, _ => false

end

/-- What a descriptor adds to a union: a union its alternatives, `never` nothing, any other itself. -/
def alternatives : Descriptor → List Descriptor
  | union alts => alts
  | never => []
  | t => [t]

/-- Append an alternative unless an equal one is there. -/
def addAlternative (alts : List Descriptor) (t : Descriptor) : List Descriptor :=
  if alts.any fun u => u.same t then alts else alts ++ [t]

/-- The descriptor of a list of alternatives: none match nothing, one stands for itself. -/
def collapse : List Descriptor → Descriptor
  | [] => never
  | [t] => t
  | alts => union alts

/-- The descriptor that accepts what one of the given descriptors accepts. -/
def unionOf (ts : List Descriptor) : Descriptor :=
  collapse ((ts.flatMap alternatives).foldl addAlternative [])

mutual

/-- The absent value matches. -/
def acceptsAbsent : Descriptor → Bool
  | absent => true
  | option _ => true
  | union alts => anyAcceptsAbsent alts
  | _ => false

def anyAcceptsAbsent : List Descriptor → Bool
  | [] => false
  | t :: rest => acceptsAbsent t || anyAcceptsAbsent rest

end

/-- Widen a descriptor so that the absent value matches too. -/
def optional (t : Descriptor) : Descriptor := if t.acceptsAbsent then t else option t

mutual

/-- Strip options and absent alternatives. -/
def present : Descriptor → Descriptor
  | option inner => present inner
  | union alts => unionOf (presentAlternatives alts)
  | t => t

def presentAlternatives : List Descriptor → List Descriptor
  | [] => []
  | t :: rest => if t.isAbsent then presentAlternatives rest else present t :: presentAlternatives rest

end

mutual

/-- The one table that a descriptor of records points at, seen through options, lists and unions
whose alternatives agree; null and absent alternatives do not count. -/
def recordTable : Descriptor → Option String
  | record table => table
  | option inner => recordTable inner
  | list item => recordTable item
  | union alts => match recordTables alts with
    | [] => none
    | first :: rest => if rest.all fun table => table == first then first else none
  | _ => none

def recordTables : List Descriptor → List (Option String)
  | [] => []
  | t :: rest =>
    if t.isAbsent || t.isNull then recordTables rest else recordTable t :: recordTables rest

end

end Descriptor

end GraphQuery
