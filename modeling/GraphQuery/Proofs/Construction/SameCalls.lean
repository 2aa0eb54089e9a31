import GraphQuery.Proofs.Construction.Related
import GraphQuery.Proofs.Outcome

/-!
# Two runs of the same calls

A program that builds statements is a tree of calls: it opens a statement, adds clauses to it, and
makes expressions of its record, of other expressions, of raw values and of whole statements.
`SameStatement` pairs what two runs of such a program end with, when both make the same calls with
the same names, fields, keys, operators and limits, and every call succeeds in both. The raw values
of the two runs are arbitrary. The scopes that the runs hand out correspond by a renaming.

A statement is `Built` when it is paired with itself: its calls are those of one run.
-/

namespace GraphQuery

mutual

/-- Expressions that two runs make by the same calls. -/
inductive SameExpr (rename : ScopeId → ScopeId) : Expr → Expr → Prop
  /-- The record of a statement. -/
  | record {s t : Statement} : SameStatement rename s t → SameExpr rename s.record t.record
  /-- The rejected input of an insertion. -/
  | rejected {i j : Insert} :
      SameStatement rename (.insert i) (.insert j) → SameExpr rename i.rejected j.rejected
  | lift {e f : Expr} {a b : Operand} :
      SameExpr rename e f → Operand.Related (SameExpr rename) a b →
      SameExpr rename (e.lift a) (f.lift b)
  | get (db : Database) (key : Key) {e f : Expr} :
      SameExpr rename e f → SameExpr rename (e.get db key) (f.get db key)
  /-- An operator that every expression has, with as many arguments as it takes. -/
  | operator {op : Operation} {e f : Expr} {as bs : List Operand} :
      op ∈ Operation.universal → op.arity.accepts as.length = true → SameExpr rename e f →
      Operand.RelatedEach (SameExpr rename) as bs →
      SameExpr rename (e.apply op as) (f.apply op bs)
  /-- A method by name, which must mean the same operation in both runs. -/
  | method (name : String) {e f e' f' : Expr} {as bs : List Operand} :
      SameExpr rename e f → Operand.RelatedEach (SameExpr rename) as bs →
      e.type.method? name = f.type.method? name →
      e.call name as = .ok e' → f.call name bs = .ok f' → SameExpr rename e' f'
  | cast (type : Descriptor) {e f : Expr} :
      SameExpr rename e f → SameExpr rename (e.cast type) (f.cast type)
  /-- A shape lowered beside an expression. -/
  | lower {e f : Expr} {a b : Shape} :
      SameExpr rename e f → Shape.Related (SameExpr rename) a b →
      SameExpr rename (a.lower e.scope) (b.lower f.scope)
  /-- A statement as a sub-query. -/
  | query (db : Database) {s t : Statement} :
      SameStatement rename s t → SameExpr rename (s.toExpr db) (t.toExpr db)

/-- Statements that two runs make by the same calls. -/
inductive SameStatement (rename : ScopeId → ScopeId) : Statement → Statement → Prop
  | select (db : Database) (scope : ScopeId) {a b : Target} {s t : Select} :
      Target.Related (SameExpr rename) a b →
      Select.of db scope a = .ok s → Select.of db (rename scope) b = .ok t →
      SameStatement rename (.select s) (.select t)
  | create (db : Database) (scope : ScopeId) {a b : Target} {s t : Create} :
      Target.Related (SameExpr rename) a b →
      Create.of db scope a = .ok s → Create.of db (rename scope) b = .ok t →
      SameStatement rename (.create s) (.create t)
  | update (db : Database) (scope : ScopeId) (upsert : Bool) {a b : Target} {s t : Update} :
      Target.Related (SameExpr rename) a b →
      Update.of db scope upsert a = .ok s → Update.of db (rename scope) upsert b = .ok t →
      SameStatement rename (.update s) (.update t)
  | delete (db : Database) (scope : ScopeId) {a b : Target} {s t : Delete} :
      Target.Related (SameExpr rename) a b →
      Delete.of db scope a = .ok s → Delete.of db (rename scope) b = .ok t →
      SameStatement rename (.delete s) (.delete t)
  | insert (db : Database) (scope : ScopeId) (table : String) {s t : Insert} :
      Insert.of db scope table = .ok s → Insert.of db (rename scope) table = .ok t →
      SameStatement rename (.insert s) (.insert t)
  | insertEdge (db : Database) (scope : ScopeId) (edge : String) {s t : Insert} :
      Insert.ofEdge db scope edge = .ok s → Insert.ofEdge db (rename scope) edge = .ok t →
      SameStatement rename (.insert s) (.insert t)
  | relate (db : Database) (scope : ScopeId) (edge : String) {a b c d : Target} {s t : Relate} :
      Target.Related (SameExpr rename) a b → Target.Related (SameExpr rename) c d →
      Relate.of db scope edge a c = .ok s → Relate.of db (rename scope) edge b d = .ok t →
      SameStatement rename (.relate s) (.relate t)
  /-- One more call on a statement. -/
  | call {s t s' t' : Statement} {c d : Call} :
      SameStatement rename s t → Call.Related (SameExpr rename) c d →
      s.call c = some (.ok s') → t.call d = some (.ok t') → SameStatement rename s' t'

end

/-- The statement comes from calls alone. -/
def Statement.Built (s : Statement) : Prop := SameStatement id s s

/-! ## A construction -/

namespace People

open Outcome

/-- A schema with one table. -/
def schema : Database := Database.empty.declare (.table ⟨"person", [("age", .number)]⟩)

/-- Delete the people older than an age, so many of them at most: a statement with a sub-query and
two raw values. -/
def removal (outer inner : ScopeId) (age : Json) (count : Nat) : Except UsageError Statement := do
  let rows ← Select.of schema inner (.table "person")
  let older := (rows.record.get schema (.field "age")).apply .gt [.value age]
  let doomed ← Delete.of schema outer (.table "person")
  let query := (Statement.select ((rows.filter older).setLimit count)).toExpr schema
  let listed := (doomed.record.get schema (.field "id")).apply .inside [.expr query]
  return .delete (doomed.filter listed)

/-- Two runs with any ages and counts make the same calls. -/
theorem sameStatement_removal {rename : ScopeId → ScopeId} {outer inner : ScopeId} {v w : Json}
    {m n : Nat} {s t : Statement} (left : removal outer inner v m = .ok s)
    (right : removal (rename outer) (rename inner) w n = .ok t) : SameStatement rename s t := by
  obtain ⟨rows, selected, rest⟩ := bind_eq_ok.mp left
  obtain ⟨doomed, opened, made⟩ := bind_eq_ok.mp rest
  obtain ⟨rows', selected', rest'⟩ := bind_eq_ok.mp right
  obtain ⟨doomed', opened', made'⟩ := bind_eq_ok.mp rest'
  cases made
  cases made'
  have people : SameStatement rename (.select rows) (.select rows') :=
    .select schema inner (.table "person") selected selected'
  have age := SameExpr.get schema (.field "age") (.record people)
  have gt : Operation.gt ∈ Operation.universal := by decide
  have filtered : SameStatement rename _ _ :=
    .call people (.filter (.operator gt rfl age (.cons (.value v w) .nil))) rfl rfl
  have limited : SameStatement rename _ _ := .call filtered (.limit m n) rfl rfl
  have deletion : SameStatement rename (.delete doomed) (.delete doomed') :=
    .delete schema outer (.table "person") opened opened'
  have id := SameExpr.get schema (.field "id") (.record deletion)
  have inside : Operation.inside ∈ Operation.universal := by decide
  have query := SameExpr.query schema limited
  exact .call deletion (.filter (.operator inside rfl id (.cons (.expr query) .nil))) rfl rfl

end People

end GraphQuery
