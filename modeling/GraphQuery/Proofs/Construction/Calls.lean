import GraphQuery.Proofs.Construction.Congruence
import GraphQuery.Proofs.Construction.Insertion
import GraphQuery.Proofs.Construction.Payload

/-!
# Calls on related statements

A call changes one clause. When related statements take related calls, and both calls succeed, the
new statements are related again: the clause that the call names by what the call was given, and all
others as they were.
-/

namespace GraphQuery

open Outcome

variable {rename : ScopeId → ScopeId} {R : Term → Term → Prop}

section Trailer

variable {related : Expr → Expr → Prop} {t u : Trailer}

theorem Trailer.Related.setMode {m n : ReturnMode} (alike : Trailer.Related related t u)
    (mode : ReturnMode.Related related m n) :
    Trailer.Related related (t.setMode m) (u.setMode n) :=
  { alike with mode := .some mode }

theorem Trailer.Related.setTimeout (alike : Trailer.Related related t u) (span : Duration) :
    Trailer.Related related (t.setTimeout span) (u.setTimeout span) :=
  { alike with timeout := rfl }

theorem Trailer.Related.setParallel (alike : Trailer.Related related t u) :
    Trailer.Related related t.setParallel u.setParallel :=
  { alike with parallel := rfl }

end Trailer

/-- The mode that returns a lowered shape. -/
theorem Congruence.returning (congruence : Congruence rename R) {a b : Shape}
    (shape : Shape.Related (Termwise R) a b) (scope scope' : ScopeId) :
    ReturnMode.Related (Termwise R) (.value (a.lower scope)) (.value (b.lower scope')) :=
  .value (shape.lower congruence scope scope')

section Slot

variable {slot slot' r r' : PayloadSlot} {input input' : Descriptor}

theorem PayloadSlot.related_assign (congruence : Congruence rename R)
    (alike : Option.Rel (Payload.Related (Termwise R)) slot slot') {scope scope' : ScopeId}
    {field : String} {op : AssignOp} {a b : Operand} (value : Operand.Related (Termwise R) a b)
    (left : slot.assign input scope field op a = .ok r)
    (right : slot'.assign input' scope' field op b = .ok r') :
    Option.Rel (Payload.Related (Termwise R)) r r' := by
  have assignment := Assignment.Related.mk field op (congruence.lift value scope scope')
  exact related_push alike (.set (.cons assignment .nil)) (push_of_assign left)
    (push_of_assign right)

variable {related : Expr → Expr → Prop}

theorem PayloadSlot.related_content (alike : Option.Rel (Payload.Related related) slot slot')
    {v w : Json} (left : slot.content input v = .ok r) (right : slot'.content input' w = .ok r') :
    Option.Rel (Payload.Related related) r r' := by
  obtain ⟨parsed, pushed⟩ := push_of_content left
  obtain ⟨parsed', pushed'⟩ := push_of_content right
  exact related_push alike (.content parsed parsed') pushed pushed'

theorem PayloadSlot.related_merge (alike : Option.Rel (Payload.Related related) slot slot')
    {v w : Json} (left : slot.merge input v = .ok r) (right : slot'.merge input' w = .ok r') :
    Option.Rel (Payload.Related related) r r' :=
  related_push alike (.merge v w) (push_of_merge left) (push_of_merge right)

theorem PayloadSlot.related_replace (alike : Option.Rel (Payload.Related related) slot slot')
    {v w : Json} (left : slot.replace input v = .ok r)
    (right : slot'.replace input' w = .ok r') :
    Option.Rel (Payload.Related related) r r' := by
  obtain ⟨parsed, pushed⟩ := push_of_replace left
  obtain ⟨parsed', pushed'⟩ := push_of_replace right
  exact related_push alike (.replace parsed parsed') pushed pushed'

theorem PayloadSlot.related_patch (alike : Option.Rel (Payload.Related related) slot slot')
    {ps qs : List PatchOp} (left : slot.patch ps = .ok r) (right : slot'.patch qs = .ok r') :
    Option.Rel (Payload.Related related) r r' :=
  related_push alike (.patch ps qs) (push_of_patch left) (push_of_patch right)

end Slot

theorem Select.Related.call (congruence : Congruence rename R) {s t s' t' : Select} {c d : Call}
    (alike : Select.Related (Termwise R) rename s t) (calls : Call.Related (Termwise R) c d)
    (left : s.call c = some s') (right : t.call d = some t') :
    Select.Related (Termwise R) rename s' t' := by
  cases calls <;> cases left <;> cases right
  case only => exact { alike with only := rfl }
  case filter condition =>
      exact { alike with condition := congruence.conjoin alike.condition condition }
  case timeout span => exact { alike with timeout := rfl }
  case parallel => exact { alike with parallel := rfl }
  case fields names => exact { alike with projection := .fields names }
  case project shape =>
      exact { alike with projection := .value (shape.lower congruence s.scope t.scope) }
  case splitOn paths => exact { alike with split := congrArg (· ++ paths) alike.split }
  case groupBy paths =>
      have group : (s.groupBy paths).group = (t.groupBy paths).group := by
        unfold Select.groupBy
        rw [alike.group]
      exact { alike with group := group }
  case groupAll => exact { alike with group := rfl }
  case orderBy direction criterion =>
      have last := Order.Related.mk direction false false criterion
      exact { alike with order := List.rel_append alike.order (.cons last .nil) }
  case orderByField path direction collate numeric =>
      have last : Order.Related (Termwise R)
          ⟨⟨s.scope, s.row.atPath path, .fieldPath path⟩, direction, collate, numeric⟩
          ⟨⟨t.scope, t.row.atPath path, .fieldPath path⟩, direction, collate, numeric⟩ :=
        .mk direction collate numeric (congruence.fieldPath path)
      exact { alike with order := List.rel_append alike.order (.cons last .nil) }
  case limit m n => exact { alike with limit := rfl }
  case start m n => exact { alike with start := rfl }
  case fetch paths => exact { alike with fetch := congrArg (· ++ paths) alike.fetch }

theorem Create.Related.withPayload {related : Expr → Expr → Prop} {s t s' t' : Create}
    {r r' : Except QueryError PayloadSlot} (alike : Create.Related related rename s t)
    (payloads : ∀ {p q}, r = .ok p → r' = .ok q → Option.Rel (Payload.Related related) p q)
    (left : s.withPayload r = .ok s') (right : t.withPayload r' = .ok t') :
    Create.Related related rename s' t' := by
  obtain ⟨_, accepted, rfl⟩ := map_eq_ok.mp left
  obtain ⟨_, accepted', rfl⟩ := map_eq_ok.mp right
  exact { alike with payload := payloads accepted accepted' }

theorem Create.Related.call (congruence : Congruence rename R) {s t s' t' : Create} {c d : Call}
    (alike : Create.Related (Termwise R) rename s t) (calls : Call.Related (Termwise R) c d)
    (left : s.call c = some (.ok s')) (right : t.call d = some (.ok t')) :
    Create.Related (Termwise R) rename s' t' := by
  cases calls <;> simp only [Create.call, Option.some.injEq, reduceCtorEq] at left right
  case only =>
      cases left
      cases right
      exact { alike with only := rfl }
  case returnMode mode =>
      cases left
      cases right
      exact { alike with trailer := alike.trailer.setMode mode }
  case returning shape =>
      cases left
      cases right
      exact { alike with
        trailer := alike.trailer.setMode (congruence.returning shape s.scope t.scope) }
  case timeout span =>
      cases left
      cases right
      exact { alike with trailer := alike.trailer.setTimeout span }
  case parallel =>
      cases left
      cases right
      exact { alike with trailer := alike.trailer.setParallel }
  case assign value =>
      exact alike.withPayload (PayloadSlot.related_assign congruence alike.payload value) left right
  case content v w =>
      exact alike.withPayload (PayloadSlot.related_content alike.payload) left right

theorem Update.Related.withPayload {related : Expr → Expr → Prop} {s t s' t' : Update}
    {r r' : Except QueryError PayloadSlot} (alike : Update.Related related rename s t)
    (payloads : ∀ {p q}, r = .ok p → r' = .ok q → Option.Rel (Payload.Related related) p q)
    (left : s.withPayload r = .ok s') (right : t.withPayload r' = .ok t') :
    Update.Related related rename s' t' := by
  obtain ⟨_, accepted, rfl⟩ := map_eq_ok.mp left
  obtain ⟨_, accepted', rfl⟩ := map_eq_ok.mp right
  exact { alike with payload := payloads accepted accepted' }

theorem Update.Related.call (congruence : Congruence rename R) {s t s' t' : Update} {c d : Call}
    (alike : Update.Related (Termwise R) rename s t) (calls : Call.Related (Termwise R) c d)
    (left : s.call c = some (.ok s')) (right : t.call d = some (.ok t')) :
    Update.Related (Termwise R) rename s' t' := by
  cases calls <;> simp only [Update.call, Option.some.injEq, reduceCtorEq] at left right
  case only =>
      cases left
      cases right
      exact { alike with only := rfl }
  case filter condition =>
      cases left
      cases right
      exact { alike with condition := congruence.conjoin alike.condition condition }
  case returnMode mode =>
      cases left
      cases right
      exact { alike with trailer := alike.trailer.setMode mode }
  case returning shape =>
      cases left
      cases right
      exact { alike with
        trailer := alike.trailer.setMode (congruence.returning shape s.scope t.scope) }
  case timeout span =>
      cases left
      cases right
      exact { alike with trailer := alike.trailer.setTimeout span }
  case parallel =>
      cases left
      cases right
      exact { alike with trailer := alike.trailer.setParallel }
  case assign value =>
      exact alike.withPayload (PayloadSlot.related_assign congruence alike.payload value) left right
  case content v w =>
      exact alike.withPayload (PayloadSlot.related_content alike.payload) left right
  case merge v w =>
      exact alike.withPayload (PayloadSlot.related_merge alike.payload) left right
  case replace v w =>
      exact alike.withPayload (PayloadSlot.related_replace alike.payload) left right
  case patch ps qs =>
      exact alike.withPayload (PayloadSlot.related_patch alike.payload) left right

theorem Delete.Related.call (congruence : Congruence rename R) {s t s' t' : Delete} {c d : Call}
    (alike : Delete.Related (Termwise R) rename s t) (calls : Call.Related (Termwise R) c d)
    (left : s.call c = some s') (right : t.call d = some t') :
    Delete.Related (Termwise R) rename s' t' := by
  cases calls <;> cases left <;> cases right
  case only => exact { alike with only := rfl }
  case filter condition =>
      exact { alike with condition := congruence.conjoin alike.condition condition }
  case returnMode mode => exact { alike with trailer := alike.trailer.setMode mode }
  case returning shape =>
      exact { alike with
        trailer := alike.trailer.setMode (congruence.returning shape s.scope t.scope) }
  case timeout span => exact { alike with trailer := alike.trailer.setTimeout span }
  case parallel => exact { alike with trailer := alike.trailer.setParallel }

section InsertData

variable {related : Expr → Expr → Prop} {s t s' t' : Insert}

/-- Declaring fields leaves no rows in either run. -/
theorem Insert.Related.fields (alike : Insert.Related related rename s t) {names : List String}
    (left : s.fields names = .ok s') (right : t.fields names = .ok t') :
    Insert.Related related rename s' t' := by
  obtain ⟨_, rfl⟩ := Insert.eq_of_fields left
  obtain ⟨_, rfl⟩ := Insert.eq_of_fields right
  exact { alike with data := .rows names .nil }

/-- A row that is accepted has a value for each declared field, so rows of two runs are of one
length. -/
theorem Insert.Related.values (alike : Insert.Related related rename s t) {v w : List Json}
    (left : s.values v = .ok s') (right : t.values w = .ok t') :
    Insert.Related related rename s' t' := by
  obtain ⟨names, rows, before, arity, _, rfl⟩ := Insert.eq_of_values left
  obtain ⟨names', rows', before', arity', _, rfl⟩ := Insert.eq_of_values right
  have data := alike.data
  rw [before, before'] at data
  cases data with
  | rows _ lines =>
      have row : v.length = w.length := arity.trans arity'.symm
      exact { alike with data := .rows names (List.rel_append lines (.cons row .nil)) }

theorem Insert.Related.content (alike : Insert.Related related rename s t) {v w : Json}
    (left : s.content v = .ok s') (right : t.content w = .ok t') :
    Insert.Related related rename s' t' := by
  obtain ⟨documents, rfl⟩ := Insert.documents_of_content left
  obtain ⟨documents', rfl⟩ := Insert.documents_of_content right
  exact { alike with data := .documents documents documents' }

theorem Insert.Related.onDuplicate_append (alike : Insert.Related related rename s t)
    {a b : Assignment} (assignment : Assignment.Related related a b) :
    Insert.Related related rename { s with onDuplicate := s.onDuplicate ++ [a] }
      { t with onDuplicate := t.onDuplicate ++ [b] } :=
  { alike with onDuplicate := List.rel_append alike.onDuplicate (.cons assignment .nil) }

end InsertData

theorem Insert.Related.call (congruence : Congruence rename R) {s t s' t' : Insert} {c d : Call}
    (alike : Insert.Related (Termwise R) rename s t) (calls : Call.Related (Termwise R) c d)
    (left : s.call c = some (.ok s')) (right : t.call d = some (.ok t')) :
    Insert.Related (Termwise R) rename s' t' := by
  cases calls <;> simp only [Insert.call, Option.some.injEq, reduceCtorEq] at left right
  case returnMode mode =>
      cases left
      cases right
      exact { alike with trailer := alike.trailer.setMode mode }
  case returning shape =>
      cases left
      cases right
      exact { alike with
        trailer := alike.trailer.setMode (congruence.returning shape s.scope t.scope) }
  case timeout span =>
      cases left
      cases right
      exact { alike with trailer := alike.trailer.setTimeout span }
  case parallel =>
      cases left
      cases right
      exact { alike with trailer := alike.trailer.setParallel }
  case ignore =>
      cases left
      cases right
      exact { alike with ignore := rfl }
  case fields names => exact alike.fields left right
  case values v w => exact alike.values left right
  case content v w => exact alike.content left right
  case onDuplicate field _ _ value =>
      cases Insert.eq_of_onDuplicateSet left
      cases Insert.eq_of_onDuplicateSet right
      exact alike.onDuplicate_append (.mk field .assign (congruence.lift value s.scope t.scope))
  case onDuplicateWith field op _ _ value =>
      cases left
      cases right
      exact alike.onDuplicate_append (.mk field op value)

theorem Relate.Related.withPayload {related : Expr → Expr → Prop} {s t s' t' : Relate}
    {r r' : Except QueryError PayloadSlot} (alike : Relate.Related related rename s t)
    (payloads : ∀ {p q}, r = .ok p → r' = .ok q → Option.Rel (Payload.Related related) p q)
    (left : s.withPayload r = .ok s') (right : t.withPayload r' = .ok t') :
    Relate.Related related rename s' t' := by
  obtain ⟨_, accepted, rfl⟩ := map_eq_ok.mp left
  obtain ⟨_, accepted', rfl⟩ := map_eq_ok.mp right
  exact { alike with payload := payloads accepted accepted' }

theorem Relate.Related.call (congruence : Congruence rename R) {s t s' t' : Relate} {c d : Call}
    (alike : Relate.Related (Termwise R) rename s t) (calls : Call.Related (Termwise R) c d)
    (left : s.call c = some (.ok s')) (right : t.call d = some (.ok t')) :
    Relate.Related (Termwise R) rename s' t' := by
  cases calls <;> simp only [Relate.call, Option.some.injEq, reduceCtorEq] at left right
  case only =>
      cases left
      cases right
      exact { alike with only := rfl }
  case returnMode mode =>
      cases left
      cases right
      exact { alike with trailer := alike.trailer.setMode mode }
  case returning shape =>
      cases left
      cases right
      exact { alike with
        trailer := alike.trailer.setMode (congruence.returning shape s.scope t.scope) }
  case timeout span =>
      cases left
      cases right
      exact { alike with trailer := alike.trailer.setTimeout span }
  case parallel =>
      cases left
      cases right
      exact { alike with trailer := alike.trailer.setParallel }
  case assign value =>
      exact alike.withPayload (PayloadSlot.related_assign congruence alike.payload value) left right
  case content v w =>
      exact alike.withPayload (PayloadSlot.related_content alike.payload) left right

/-- What one call preserves, whatever the kind of the statement. -/
theorem Statement.Related.call (congruence : Congruence rename R) {s t s' t' : Statement}
    {c d : Call} (alike : Statement.Related (Termwise R) rename s t)
    (calls : Call.Related (Termwise R) c d) (left : s.call c = some (.ok s'))
    (right : t.call d = some (.ok t')) : Statement.Related (Termwise R) rename s' t' := by
  cases alike with
  | select parts =>
      obtain ⟨a, called, made⟩ := Option.map_eq_some_iff.mp left
      obtain ⟨b, called', made'⟩ := Option.map_eq_some_iff.mp right
      cases made
      cases made'
      exact .select (parts.call congruence calls called called')
  | create parts =>
      obtain ⟨a, called, rfl⟩ := offered_map_eq_ok.mp left
      obtain ⟨b, called', rfl⟩ := offered_map_eq_ok.mp right
      exact .create (parts.call congruence calls called called')
  | update parts =>
      obtain ⟨a, called, rfl⟩ := offered_map_eq_ok.mp left
      obtain ⟨b, called', rfl⟩ := offered_map_eq_ok.mp right
      exact .update (parts.call congruence calls called called')
  | delete parts =>
      obtain ⟨a, called, made⟩ := Option.map_eq_some_iff.mp left
      obtain ⟨b, called', made'⟩ := Option.map_eq_some_iff.mp right
      cases made
      cases made'
      exact .delete (parts.call congruence calls called called')
  | insert parts =>
      obtain ⟨a, called, rfl⟩ := offered_map_eq_ok.mp left
      obtain ⟨b, called', rfl⟩ := offered_map_eq_ok.mp right
      exact .insert (parts.call congruence calls called called')
  | relate parts =>
      obtain ⟨a, called, rfl⟩ := offered_map_eq_ok.mp left
      obtain ⟨b, called', rfl⟩ := offered_map_eq_ok.mp right
      exact .relate (parts.call congruence calls called called')

end GraphQuery
