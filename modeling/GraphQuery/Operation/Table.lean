import GraphQuery.Operation.Basic

/-!
# The operations there are

Some operations apply to values of any shape. The others belong to a `Family` of values, and a
descriptor has a family when all values that it describes are of that family, null and absence left
aside. `Descriptor.method?` looks up a name among the operations of the family first.
-/

namespace GraphQuery

/-- Values with operations of their own. -/
inductive Family
  | string
  | number
  | array
  | date
  | record
  deriving DecidableEq, Repr

namespace Operation

def eq : Operation := ⟨"eq", .between "=", .exactly 1, .bool⟩
def ne : Operation := ⟨"ne", .between "!=", .exactly 1, .bool⟩
def exact : Operation := ⟨"exact", .between "==", .exactly 1, .bool⟩
def gt : Operation := ⟨"gt", .between ">", .exactly 1, .bool⟩
def gte : Operation := ⟨"gte", .between ">=", .exactly 1, .bool⟩
def lt : Operation := ⟨"lt", .between "<", .exactly 1, .bool⟩
def lte : Operation := ⟨"lte", .between "<=", .exactly 1, .bool⟩
def and : Operation := ⟨"and", .between "AND", .exactly 1, .bool⟩
def or : Operation := ⟨"or", .between "OR", .exactly 1, .bool⟩
def not : Operation := ⟨"not", .before "!", .exactly 0, .bool⟩
def truthy : Operation := ⟨"truthy", .before "!!", .exactly 0, .bool⟩
def contains : Operation := ⟨"contains", .between "CONTAINS", .exactly 1, .bool⟩
def containsAny : Operation := ⟨"contains_any", .between "CONTAINSANY", .exactly 1, .bool⟩
def containsAll : Operation := ⟨"contains_all", .between "CONTAINSALL", .exactly 1, .bool⟩
def inside : Operation := ⟨"inside", .between "INSIDE", .exactly 1, .bool⟩
def notInside : Operation := ⟨"not_inside", .between "NOT INSIDE", .exactly 1, .bool⟩
def add : Operation := ⟨"add", .between "+", .exactly 1, .receiver⟩
def sub : Operation := ⟨"sub", .between "-", .exactly 1, .number⟩
def mul : Operation := ⟨"mul", .between "*", .exactly 1, .number⟩
def div : Operation := ⟨"div", .between "/", .exactly 1, .number⟩

/-- The operations on values of any shape. -/
def universal : List Operation :=
  [eq, ne, exact, gt, gte, lt, lte, and, or, not, truthy, contains, containsAny, containsAll, inside,
    notInside, add, sub, mul, div]

def ofStrings : List Operation :=
  [⟨"len", .call "string::len", .exactly 0, .number⟩,
    ⟨"lowercase", .call "string::lowercase", .exactly 0, .string⟩,
    ⟨"uppercase", .call "string::uppercase", .exactly 0, .string⟩,
    ⟨"trim", .call "string::trim", .exactly 0, .string⟩,
    ⟨"reverse", .call "string::reverse", .exactly 0, .string⟩,
    ⟨"starts_with", .call "string::starts_with", .exactly 1, .bool⟩,
    ⟨"ends_with", .call "string::ends_with", .exactly 1, .bool⟩,
    ⟨"contains", .call "string::contains", .exactly 1, .bool⟩,
    ⟨"join", .callSeparated "string::join", .atLeast 1, .string⟩,
    ⟨"concat", .call "string::concat", .atLeast 1, .string⟩,
    ⟨"slice", .call "string::slice", .between 1 2, .string⟩,
    ⟨"split", .call "string::split", .exactly 1, .strings⟩,
    ⟨"words", .call "string::words", .exactly 0, .strings⟩,
    ⟨"replace", .call "string::replace", .exactly 2, .string⟩,
    ⟨"repeat", .call "string::repeat", .exactly 1, .string⟩,
    ⟨"is_email", .call "string::is::email", .exactly 0, .bool⟩]

def ofNumbers : List Operation :=
  [⟨"abs", .call "math::abs", .exactly 0, .number⟩,
    ⟨"ceil", .call "math::ceil", .exactly 0, .number⟩,
    ⟨"floor", .call "math::floor", .exactly 0, .number⟩,
    ⟨"round", .call "math::round", .exactly 0, .number⟩,
    ⟨"sqrt", .call "math::sqrt", .exactly 0, .number⟩,
    ⟨"fixed", .call "math::fixed", .exactly 1, .number⟩,
    ⟨"pow", .between "**", .exactly 1, .number⟩]

def ofArrays : List Operation :=
  [⟨"len", .call "array::len", .exactly 0, .number⟩,
    ⟨"first", .call "array::first", .exactly 0, .maybeElement⟩,
    ⟨"last", .call "array::last", .exactly 0, .maybeElement⟩,
    ⟨"at", .call "array::at", .exactly 1, .maybeElement⟩,
    ⟨"min", .call "array::min", .exactly 0, .maybeElement⟩,
    ⟨"max", .call "array::max", .exactly 0, .maybeElement⟩,
    ⟨"distinct", .call "array::distinct", .exactly 0, .elements⟩,
    ⟨"reverse", .call "array::reverse", .exactly 0, .elements⟩,
    ⟨"sort", .call "array::sort", .between 0 1, .elements⟩,
    ⟨"flatten", .call "array::flatten", .exactly 0, .innerElements⟩,
    ⟨"append", .call "array::append", .exactly 1, .elements⟩,
    ⟨"concat", .call "array::concat", .atLeast 1, .elements⟩,
    ⟨"union", .call "array::union", .exactly 1, .elements⟩,
    ⟨"join", .call "array::join", .exactly 1, .string⟩]

def ofDates : List Operation :=
  [⟨"year", .call "time::year", .exactly 0, .number⟩,
    ⟨"month", .call "time::month", .exactly 0, .number⟩,
    ⟨"day", .call "time::day", .exactly 0, .number⟩,
    ⟨"hour", .call "time::hour", .exactly 0, .number⟩,
    ⟨"minute", .call "time::minute", .exactly 0, .number⟩,
    ⟨"second", .call "time::second", .exactly 0, .number⟩,
    ⟨"unix", .call "time::unix", .exactly 0, .number⟩,
    ⟨"format", .call "time::format", .exactly 1, .string⟩,
    ⟨"floor", .call "time::floor", .exactly 1, .date⟩,
    ⟨"round", .call "time::round", .exactly 1, .date⟩]

def ofRecords : List Operation :=
  [⟨"table", .call "record::tb", .exactly 0, .string⟩,
    ⟨"key", .call "record::id", .exactly 0, .recordId⟩,
    ⟨"exists", .call "record::exists", .exactly 0, .bool⟩]

end Operation

/-- The operations that belong to a family. -/
def Family.operations : Family → List Operation
  | string => Operation.ofStrings
  | number => Operation.ofNumbers
  | array => Operation.ofArrays
  | date => Operation.ofDates
  | record => Operation.ofRecords

namespace Descriptor

/-- The family of a descriptor that is neither an option nor a union. -/
def plainFamily? : Descriptor → Option Family
  | string => some .string
  | literal (.string _) => some .string
  | number => some .number
  | literal (.number _) => some .number
  | list _ => some .array
  | tuple _ => some .array
  | date => some .date
  | record _ => some .record
  | _ => none

/-- The family that all of them have; none when there is no descriptor at all. -/
def commonFamily? (ts : List Descriptor) : Option Family :=
  match ts.map plainFamily? with
  | [] => none
  | first :: rest => if rest.all fun f => f == first then first else none

/-- The family of a descriptor, optionality left aside. The alternatives of a union that was stripped
of optionality are neither options nor unions. -/
def family? (t : Descriptor) : Option Family :=
  match t.present with
  | union alts => commonFamily? (alts.filter fun t => !t.isNull)
  | t => t.plainFamily?

/-- The operations of the family, if there is one. -/
def familyOperations (t : Descriptor) : List Operation :=
  match t.family? with
  | some f => f.operations
  | none => []

/-- The operation that a name means on values of this shape. -/
def method? (t : Descriptor) (name : String) : Option Operation :=
  (t.familyOperations.find? fun op => op.name == name) <|>
    Operation.universal.find? fun op => op.name == name

/-- The names of the operations on values of this shape, those of the family first. -/
def methodNames (t : Descriptor) : List String :=
  let own := t.familyOperations.map Operation.name
  own ++ (Operation.universal.map Operation.name).filter fun name => !own.contains name

end Descriptor

end GraphQuery
