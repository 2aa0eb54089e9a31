import GraphQuery.Fields
import GraphQuery.Decimal.Double

/-!
# JSON values

Objects keep their keys in order. A number is an integer or a finite binary64 number, and the two
are never equal.
-/

namespace GraphQuery

/-- A JSON number. -/
inductive Number
  | int (value : Int)
  | float (value : Double)
  deriving DecidableEq

/-- The number as a double, the nearest one for an integer. -/
def Number.toDouble? : Number → Option Double
  | .int i => Double.ofInt? i
  | .float x => some x

/-- A JSON value. -/
inductive Json
  | null
  | bool (value : Bool)
  | number (value : Number)
  | string (value : String)
  | array (items : List Json)
  | object (fields : List (String × Json))

namespace Json

instance : Inhabited Json := ⟨null⟩

/-- An integer as a value. -/
def int (i : Int) : Json := number (.int i)

def isNull : Json → Bool
  | null => true
  | _ => false

def isObject : Json → Bool
  | object _ => true
  | _ => false

def string? : Json → Option String
  | string s => some s
  | _ => none

def bool? : Json → Option Bool
  | bool b => some b
  | _ => none

def nat? : Json → Option Nat
  | number (.int i) => if 0 ≤ i then some i.toNat else none
  | _ => none

def array? : Json → Option (List Json)
  | array items => some items
  | _ => none

def object? : Json → Option (List (String × Json))
  | object fields => some fields
  | _ => none

/-- The value under a key of an object. -/
def get? (v : Json) (key : String) : Option Json :=
  match v with
  | object fields => fields.lookup key
  | _ => none

/-- A list of strings as a value. -/
def strings (items : List String) : Json := array (items.map string)

/-- What holds of a container if it holds of everything that is directly inside holds of all values. -/
theorem induction {motive : Json → Prop} (null : motive null) (bool : ∀ b, motive (bool b))
    (number : ∀ n, motive (number n)) (string : ∀ s, motive (string s))
    (array : ∀ items, (∀ v ∈ items, motive v) → motive (array items))
    (object : ∀ fields, (∀ name v, (name, v) ∈ fields → motive v) → motive (object fields))
    (v : Json) : motive v := by
  refine @Json.rec motive (fun items => ∀ v ∈ items, motive v)
    (fun fields => ∀ name v, (name, v) ∈ fields → motive v) (fun field => motive field.2)
    null bool number string array object ?_ ?_ ?_ ?_ ?_ v
  · exact fun _ none => nomatch none
  · intro v rest here behind
    exact List.forall_mem_cons.mpr ⟨here, behind⟩
  · exact fun _ _ none => nomatch none
  · intro field rest here behind name v member
    rcases List.mem_cons.mp member with rfl | member
    · exact here
    · exact behind name v member
  · exact fun _ _ here => here

end Json

end GraphQuery
