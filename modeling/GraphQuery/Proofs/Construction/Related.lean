import GraphQuery.Statement.Call
import Mathlib.Data.List.Forall2

/-!
# Statements that are alike part by part

A relation of expressions is carried over to everything that holds expressions: operands, shapes,
targets, payloads, calls and whole statements. Related things have the same form, names, fields,
operators and limits; expressions in the same place are related; raw values need not have anything
to do with one another. Scopes of statements correspond by a renaming.
-/

namespace GraphQuery

/-- What every relation of the members says about the left ones holds for each of them. -/
theorem forall_mem_of_forall₂ {α β : Type} {R : α → β → Prop} {P : α → Prop} {as : List α}
    {bs : List β} (alike : List.Forall₂ R as bs) (left : ∀ a b, R a b → P a) : ∀ a ∈ as, P a := by
  have both : List.Forall₂ (fun a b => P a ∧ R a b) as bs := by
    refine alike.imp ?_
    intro a b related
    exact ⟨left a b related, related⟩
  exact ((List.forall₂_and_left as bs).mp both).1

variable (related : Expr → Expr → Prop)

/-- An operand for an operand of the same form. -/
inductive Operand.Related : Operand → Operand → Prop
  | expr {e f : Expr} : related e f → Related (.expr e) (.expr f)
  | value (v w : Json) : Related (.value v) (.value w)

/-- Operands one by one. -/
inductive Operand.RelatedEach : List Operand → List Operand → Prop
  | nil : RelatedEach [] []
  | cons {a b : Operand} {as bs : List Operand} :
      Operand.Related related a b → RelatedEach as bs → RelatedEach (a :: as) (b :: bs)

mutual

/-- A shape for a shape with the same keys and lengths. -/
inductive Shape.Related : Shape → Shape → Prop
  | expr {e f : Expr} : related e f → Related (.expr e) (.expr f)
  | value (v w : Json) : Related (.value v) (.value w)
  | object {es fs : List (String × Shape)} :
      Shape.RelatedEntries es fs → Related (.object es) (.object fs)
  | array {as bs : List Shape} : Shape.RelatedItems as bs → Related (.array as) (.array bs)

inductive Shape.RelatedEntries : List (String × Shape) → List (String × Shape) → Prop
  | nil : RelatedEntries [] []
  | cons {key : String} {a b : Shape} {es fs : List (String × Shape)} :
      Shape.Related a b → RelatedEntries es fs → RelatedEntries ((key, a) :: es) ((key, b) :: fs)

inductive Shape.RelatedItems : List Shape → List Shape → Prop
  | nil : RelatedItems [] []
  | cons {a b : Shape} {as bs : List Shape} :
      Shape.Related a b → RelatedItems as bs → RelatedItems (a :: as) (b :: bs)

end

/-- The same table, any two records, or related expressions. -/
inductive Target.Related : Target → Target → Prop
  | table (name : String) : Related (.table name) (.table name)
  | record (ref other : RecordRef) : Related (.record ref) (.record other)
  | expr {e f : Expr} : related e f → Related (.expr e) (.expr f)

inductive Projection.Related : Projection → Projection → Prop
  | all : Related .all .all
  | fields (paths : List String) : Related (.fields paths) (.fields paths)
  | value {e f : Expr} : related e f → Related (.value e) (.value f)

inductive Order.Related : Order → Order → Prop
  | mk {e f : Expr} (direction : Direction) (collate numeric : Bool) :
      related e f → Related ⟨e, direction, collate, numeric⟩ ⟨f, direction, collate, numeric⟩

inductive Assignment.Related : Assignment → Assignment → Prop
  | mk {e f : Expr} (field : String) (op : AssignOp) :
      related e f → Related ⟨field, op, e⟩ ⟨field, op, f⟩

/-- Payloads of one mode; documents and patches are raw values. -/
inductive Payload.Related : Payload → Payload → Prop
  | set {as bs : List Assignment} :
      List.Forall₂ (Assignment.Related related) as bs → Related (.set as) (.set bs)
  | content (v w : Json) : Related (.content v) (.content w)
  | merge (v w : Json) : Related (.merge v) (.merge w)
  | patch (ps qs : List PatchOp) : Related (.patch ps) (.patch qs)
  | replace (v w : Json) : Related (.replace v) (.replace w)

inductive ReturnMode.Related : ReturnMode → ReturnMode → Prop
  | none : Related .none .none
  | before : Related .before .before
  | after : Related .after .after
  | diff : Related .diff .diff
  | value {e f : Expr} : related e f → Related (.value e) (.value f)

/-- Rows for the same fields, line by line of the same length, or documents. -/
inductive InsertData.Related : InsertData → InsertData → Prop
  | empty : Related .empty .empty
  | rows (fields : List String) {vs ws : List (List Json)} :
      List.Forall₂ (fun v w => v.length = w.length) vs ws →
      Related (.rows fields vs) (.rows fields ws)
  | documents (vs ws : List Json) : Related (.documents vs) (.documents ws)

structure Trailer.Related (t u : Trailer) : Prop where
  mode : Option.Rel (ReturnMode.Related related) t.mode u.mode
  timeout : t.timeout = u.timeout
  parallel : t.parallel = u.parallel

/-- The same call; what it is given may differ in raw values. -/
inductive Call.Related : Call → Call → Prop
  | only : Related .only .only
  | filter {e f : Expr} : related e f → Related (.filter e) (.filter f)
  | returnMode {m n : ReturnMode} :
      ReturnMode.Related related m n → Related (.returnMode m) (.returnMode n)
  | returning {a b : Shape} : Shape.Related related a b → Related (.returning a) (.returning b)
  | timeout (span : Duration) : Related (.timeout span) (.timeout span)
  | parallel : Related .parallel .parallel
  | assign (field : String) (op : AssignOp) {a b : Operand} :
      Operand.Related related a b → Related (.assign field op a) (.assign field op b)
  | content (v w : Json) : Related (.content v) (.content w)
  | merge (v w : Json) : Related (.merge v) (.merge w)
  | replace (v w : Json) : Related (.replace v) (.replace w)
  | patch (ps qs : List PatchOp) : Related (.patch ps) (.patch qs)
  | fields (names : List String) : Related (.fields names) (.fields names)
  | project {a b : Shape} : Shape.Related related a b → Related (.project a) (.project b)
  | splitOn (paths : List String) : Related (.splitOn paths) (.splitOn paths)
  | groupBy (paths : List String) : Related (.groupBy paths) (.groupBy paths)
  | groupAll : Related .groupAll .groupAll
  | orderBy {e f : Expr} (direction : Direction) :
      related e f → Related (.orderBy e direction) (.orderBy f direction)
  | orderByField (path : String) (direction : Direction) (collate numeric : Bool) :
      Related (.orderByField path direction collate numeric)
        (.orderByField path direction collate numeric)
  | limit (m n : Nat) : Related (.limit m) (.limit n)
  | start (m n : Nat) : Related (.start m) (.start n)
  | fetch (paths : List String) : Related (.fetch paths) (.fetch paths)
  | ignore : Related .ignore .ignore
  | values (vs ws : List Json) : Related (.values vs) (.values ws)
  | onDuplicate (field : String) {a b : Operand} :
      Operand.Related related a b → Related (.onDuplicate field a) (.onDuplicate field b)
  | onDuplicateWith (field : String) (op : AssignOp) {e f : Expr} :
      related e f → Related (.onDuplicateWith field op e) (.onDuplicateWith field op f)

variable (rename : ScopeId → ScopeId)

structure Select.Related (s t : Select) : Prop where
  scope : t.scope = rename s.scope
  target : Target.Related related s.target t.target
  projection : Projection.Related related s.projection t.projection
  only : s.only = t.only
  condition : Option.Rel related s.condition t.condition
  split : s.split = t.split
  group : s.group = t.group
  order : List.Forall₂ (Order.Related related) s.order t.order
  limit : s.limit.isSome = t.limit.isSome
  start : s.start.isSome = t.start.isSome
  fetch : s.fetch = t.fetch
  timeout : s.timeout = t.timeout
  parallel : s.parallel = t.parallel

structure Create.Related (s t : Create) : Prop where
  scope : t.scope = rename s.scope
  target : Target.Related related s.target t.target
  only : s.only = t.only
  payload : Option.Rel (Payload.Related related) s.payload t.payload
  trailer : Trailer.Related related s.trailer t.trailer

structure Update.Related (s t : Update) : Prop where
  scope : t.scope = rename s.scope
  upsert : s.upsert = t.upsert
  target : Target.Related related s.target t.target
  only : s.only = t.only
  payload : Option.Rel (Payload.Related related) s.payload t.payload
  condition : Option.Rel related s.condition t.condition
  trailer : Trailer.Related related s.trailer t.trailer

structure Delete.Related (s t : Delete) : Prop where
  scope : t.scope = rename s.scope
  target : Target.Related related s.target t.target
  only : s.only = t.only
  condition : Option.Rel related s.condition t.condition
  trailer : Trailer.Related related s.trailer t.trailer

structure Insert.Related (s t : Insert) : Prop where
  scope : t.scope = rename s.scope
  table : s.table = t.table
  relation : s.relation = t.relation
  ignore : s.ignore = t.ignore
  data : InsertData.Related s.data t.data
  onDuplicate : List.Forall₂ (Assignment.Related related) s.onDuplicate t.onDuplicate
  trailer : Trailer.Related related s.trailer t.trailer

structure Relate.Related (s t : Relate) : Prop where
  scope : t.scope = rename s.scope
  edge : s.edge = t.edge
  source : Target.Related related s.source t.source
  target : Target.Related related s.target t.target
  only : s.only = t.only
  payload : Option.Rel (Payload.Related related) s.payload t.payload
  trailer : Trailer.Related related s.trailer t.trailer

/-- Statements of one kind with related parts. -/
inductive Statement.Related : Statement → Statement → Prop
  | select {s t : Select} : Select.Related related rename s t → Related (.select s) (.select t)
  | create {s t : Create} : Create.Related related rename s t → Related (.create s) (.create t)
  | update {s t : Update} : Update.Related related rename s t → Related (.update s) (.update t)
  | delete {s t : Delete} : Delete.Related related rename s t → Related (.delete s) (.delete t)
  | insert {s t : Insert} : Insert.Related related rename s t → Related (.insert s) (.insert t)
  | relate {s t : Relate} : Relate.Related related rename s t → Related (.relate s) (.relate t)

theorem Statement.Related.scope_eq {s t : Statement}
    (alike : Statement.Related related rename s t) : t.scope = rename s.scope := by
  cases alike with
  | select parts => exact parts.scope
  | create parts => exact parts.scope
  | update parts => exact parts.scope
  | delete parts => exact parts.scope
  | insert parts => exact parts.scope
  | relate parts => exact parts.scope

end GraphQuery
