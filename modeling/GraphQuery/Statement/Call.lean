import GraphQuery.Statement.Basic

/-!
# Calls on statements

A `Call` adds to a clause of a statement. Each kind of statement offers calls of its own; a call may
fail, and then there is no new statement.
-/

namespace GraphQuery

/-- What can be asked of a statement that is being built. -/
inductive Call
  | only
  | filter (condition : Expr)
  | returnMode (mode : ReturnMode)
  | returning (shape : Shape)
  | timeout (span : Duration)
  | parallel
  | assign (field : String) (op : AssignOp) (value : Operand)
  | content (document : Json)
  | merge (document : Json)
  | replace (document : Json)
  | patch (operations : List PatchOp)
  | fields (names : List String)
  | project (shape : Shape)
  | splitOn (paths : List String)
  | groupBy (paths : List String)
  | groupAll
  | orderBy (criterion : Expr) (direction : Direction)
  | orderByField (path : String) (direction : Direction) (collate numeric : Bool)
  | limit (n : Nat)
  | start (n : Nat)
  | fetch (paths : List String)
  | ignore
  | values (row : List Json)
  | onDuplicate (field : String) (value : Operand)
  | onDuplicateWith (field : String) (op : AssignOp) (value : Expr)

/-- A call on a selection, if selections offer it. None of them fails. -/
def Select.call (s : Select) : Call → Option Select
  | .only => some s.setOnly
  | .filter condition => some (s.filter condition)
  | .timeout span => some (s.setTimeout span)
  | .parallel => some s.setParallel
  | .fields names => some (s.fields names)
  | .project shape => some (s.project shape)
  | .splitOn paths => some (s.splitOn paths)
  | .groupBy paths => some (s.groupBy paths)
  | .groupAll => some s.groupAll
  | .orderBy criterion direction => some (s.orderBy criterion direction)
  | .orderByField path direction collate numeric =>
    some (s.orderByField path direction collate numeric)
  | .limit n => some (s.setLimit n)
  | .start n => some (s.setStart n)
  | .fetch paths => some (s.fetchFields paths)
  | _ => none

/-- A call on a creation, if creations offer it. -/
def Create.call (c : Create) : Call → Option (Except QueryError Create)
  | .only => some (.ok c.setOnly)
  | .returnMode mode => some (.ok (c.returnMode mode))
  | .returning shape => some (.ok (c.returning shape))
  | .timeout span => some (.ok (c.setTimeout span))
  | .parallel => some (.ok c.setParallel)
  | .assign field op value => some (c.assign field op value)
  | .content document => some (c.content document)
  | _ => none

/-- A call on an update or an upsert, if they offer it. -/
def Update.call (u : Update) : Call → Option (Except QueryError Update)
  | .only => some (.ok u.setOnly)
  | .filter condition => some (.ok (u.filter condition))
  | .returnMode mode => some (.ok (u.returnMode mode))
  | .returning shape => some (.ok (u.returning shape))
  | .timeout span => some (.ok (u.setTimeout span))
  | .parallel => some (.ok u.setParallel)
  | .assign field op value => some (u.assign field op value)
  | .content document => some (u.content document)
  | .merge document => some (u.merge document)
  | .replace document => some (u.replace document)
  | .patch operations => some (u.patch operations)
  | _ => none

/-- A call on a deletion, if deletions offer it. None of them fails. -/
def Delete.call (d : Delete) : Call → Option Delete
  | .only => some d.setOnly
  | .filter condition => some (d.filter condition)
  | .returnMode mode => some (d.returnMode mode)
  | .returning shape => some (d.returning shape)
  | .timeout span => some (d.setTimeout span)
  | .parallel => some d.setParallel
  | _ => none

/-- A call on an insertion, if insertions offer it. -/
def Insert.call (i : Insert) : Call → Option (Except QueryError Insert)
  | .returnMode mode => some (.ok (i.returnMode mode))
  | .returning shape => some (.ok (i.returning shape))
  | .timeout span => some (.ok (i.setTimeout span))
  | .parallel => some (.ok i.setParallel)
  | .ignore => some (.ok i.setIgnore)
  | .fields names => some (i.fields names)
  | .values row => some (i.values row)
  | .content document => some (i.content document)
  | .onDuplicate field value => some (i.onDuplicateSet field value)
  | .onDuplicateWith field op value => some (.ok (i.onDuplicateWith field op value))
  | _ => none

/-- A call on a relation, if relations offer it. -/
def Relate.call (r : Relate) : Call → Option (Except QueryError Relate)
  | .only => some (.ok r.setOnly)
  | .returnMode mode => some (.ok (r.returnMode mode))
  | .returning shape => some (.ok (r.returning shape))
  | .timeout span => some (.ok (r.setTimeout span))
  | .parallel => some (.ok r.setParallel)
  | .assign field op value => some (r.assign field op value)
  | .content document => some (r.content document)
  | _ => none

/-- A call on a statement: nothing if statements of its kind do not offer the call, else its error
or the new statement. -/
def Statement.call : Statement → Call → Option (Except QueryError Statement)
  | select s, c => (s.call c).map fun s => .ok (select s)
  | create s, c => (s.call c).map fun r => r.map create
  | update s, c => (s.call c).map fun r => r.map update
  | delete s, c => (s.call c).map fun s => .ok (delete s)
  | insert s, c => (s.call c).map fun r => r.map insert
  | relate s, c => (s.call c).map fun r => r.map relate

end GraphQuery
