import GraphQuery.Run
import GraphQuery.Statement.Call

/-!
# The slots of a statement

Every call writes to one slot of the statement that is being built. `Statement.alone` leaves of a
statement what it was opened with and what stands in one slot; all other slots are empty.
-/

namespace GraphQuery

/-- The slots that calls write to. What is selected of the rows, what is written to them by a payload
and what is inserted are one slot, `body`: a statement has one of the three at most. -/
inductive Slot
  | body | only | condition | split | group | order | limit | start | fetch | mode | timeout
  | parallel | ignore | onDuplicate
  deriving DecidableEq, Repr

/-- The slot that a call writes to. -/
def Call.slot : Call → Slot
  | only => .only
  | filter _ => .condition
  | returnMode _ => .mode
  | returning _ => .mode
  | timeout _ => .timeout
  | parallel => .parallel
  | assign _ _ _ => .body
  | content _ => .body
  | merge _ => .body
  | replace _ => .body
  | patch _ => .body
  | fields _ => .body
  | project _ => .body
  | splitOn _ => .split
  | groupBy _ => .group
  | groupAll => .group
  | orderBy _ _ => .order
  | orderByField _ _ _ _ => .order
  | limit _ => .limit
  | start _ => .start
  | fetch _ => .fetch
  | ignore => .ignore
  | values _ => .body
  | onDuplicate _ _ => .onDuplicate
  | onDuplicateWith _ _ _ => .onDuplicate

/-- Two lists of the same calls that differ only in how calls on different slots are interleaved. -/
def Call.Interleaved (first second : List Call) : Prop :=
  ∀ slot, first.filter (·.slot = slot) = second.filter (·.slot = slot)

/-- What stands in `own` if that is the slot looked at, else what stands in an empty one. -/
def Slot.pick {α : Type} (slot own : Slot) (content empty : α) : α :=
  if slot = own then content else empty

def Trailer.alone (slot : Slot) (t : Trailer) : Trailer where
  mode := slot.pick .mode t.mode none
  timeout := slot.pick .timeout t.timeout none
  parallel := slot.pick .parallel t.parallel false

def Select.alone (slot : Slot) (s : Select) : Select where
  scope := s.scope
  target := s.target
  row := s.row
  projection := slot.pick .body s.projection .all
  only := slot.pick .only s.only false
  condition := slot.pick .condition s.condition none
  split := slot.pick .split s.split []
  group := slot.pick .group s.group none
  order := slot.pick .order s.order []
  limit := slot.pick .limit s.limit none
  start := slot.pick .start s.start none
  fetch := slot.pick .fetch s.fetch []
  timeout := slot.pick .timeout s.timeout none
  parallel := slot.pick .parallel s.parallel false

def Create.alone (slot : Slot) (c : Create) : Create where
  scope := c.scope
  target := c.target
  row := c.row
  input := c.input
  only := slot.pick .only c.only false
  payload := slot.pick .body c.payload none
  trailer := c.trailer.alone slot

def Update.alone (slot : Slot) (u : Update) : Update where
  scope := u.scope
  upsert := u.upsert
  target := u.target
  row := u.row
  input := u.input
  only := slot.pick .only u.only false
  payload := slot.pick .body u.payload none
  condition := slot.pick .condition u.condition none
  trailer := u.trailer.alone slot

def Delete.alone (slot : Slot) (d : Delete) : Delete where
  scope := d.scope
  target := d.target
  row := d.row
  only := slot.pick .only d.only false
  condition := slot.pick .condition d.condition none
  trailer := d.trailer.alone slot

def Insert.alone (slot : Slot) (i : Insert) : Insert where
  scope := i.scope
  table := i.table
  relation := i.relation
  row := i.row
  input := i.input
  ignore := slot.pick .ignore i.ignore false
  data := slot.pick .body i.data .empty
  onDuplicate := slot.pick .onDuplicate i.onDuplicate []
  trailer := i.trailer.alone slot

def Relate.alone (slot : Slot) (r : Relate) : Relate where
  scope := r.scope
  edge := r.edge
  source := r.source
  target := r.target
  row := r.row
  input := r.input
  only := slot.pick .only r.only false
  payload := slot.pick .body r.payload none
  trailer := r.trailer.alone slot

namespace Statement

/-- The statement as it was opened, but for what stands in one slot. -/
def alone (slot : Slot) : Statement → Statement
  | select s => select (s.alone slot)
  | create c => create (c.alone slot)
  | update u => update (u.alone slot)
  | delete d => delete (d.alone slot)
  | insert i => insert (i.alone slot)
  | relate r => relate (r.alone slot)

/-- A call on a statement as a step of a run. -/
def step (s : Statement) (c : Call) : Except (Option QueryError) Statement := Run.offered (s.call c)

end Statement

end GraphQuery
