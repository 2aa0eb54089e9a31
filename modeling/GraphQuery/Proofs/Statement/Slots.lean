import GraphQuery.Proofs.Construction.Insertion
import GraphQuery.Proofs.Run
import GraphQuery.Statement.Slot

/-!
# Calls on different slots commute

No call reads or writes a slot but its own, so it does not matter in which order calls on different
slots are made: what they answer, and the statement that they end with, are the same.
-/

namespace GraphQuery

open Outcome

attribute [ext] Trailer Select Create Update Delete Insert Relate

section Slots

variable {slot : Slot} {c : Call}

/-- What stands in another slot is not seen. -/
theorem Slot.pick_eq_of_ne {own : Slot} (other : slot ≠ own) {α : Type} (a b empty : α) :
    slot.pick own a empty = slot.pick own b empty := by
  rw [pick, pick, if_neg other, if_neg other]

section Trailer

variable (t : Trailer)

theorem Trailer.alone_setMode (other : slot ≠ .mode) (mode : ReturnMode) :
    (t.setMode mode).alone slot = t.alone slot := by
  ext1
  case mode => exact Slot.pick_eq_of_ne other _ _ _
  all_goals rfl

theorem Trailer.alone_setTimeout (other : slot ≠ .timeout) (span : Duration) :
    (t.setTimeout span).alone slot = t.alone slot := by
  ext1
  case timeout => exact Slot.pick_eq_of_ne other _ _ _
  all_goals rfl

theorem Trailer.alone_setParallel (other : slot ≠ .parallel) :
    t.setParallel.alone slot = t.alone slot := by
  ext1
  case parallel => exact Slot.pick_eq_of_ne other _ _ _
  all_goals rfl

end Trailer

theorem Trailer.eq_of_alone {t u : Trailer} (same : ∀ slot, t.alone slot = u.alone slot) : t = u := by
  ext1
  case mode => exact (congrArg Trailer.mode (same .mode) :)
  case timeout => exact (congrArg Trailer.timeout (same .timeout) :)
  case parallel => exact (congrArg Trailer.parallel (same .parallel) :)

/-! ## Selections -/

theorem Select.call_alone (s : Select) (c : Call) :
    (s.alone c.slot).call c = (s.call c).map (Select.alone c.slot) := by
  cases c <;> rfl

theorem Select.alone_call {s s' : Select} (called : s.call c = some s') (other : slot ≠ c.slot) :
    s'.alone slot = s.alone slot := by
  -- The field of the slot is not looked at, and all others are as they were.
  have unseen := @Slot.pick_eq_of_ne slot c.slot other
  cases c <;> cases called <;> ext1 <;> first | rfl | exact unseen _ _ _

theorem Select.eq_of_alone {s t : Select} (same : ∀ slot, s.alone slot = t.alone slot) : s = t := by
  ext1
  case scope => exact (congrArg Select.scope (same .body) :)
  case target => exact (congrArg Select.target (same .body) :)
  case row => exact (congrArg Select.row (same .body) :)
  case projection => exact (congrArg Select.projection (same .body) :)
  case only => exact (congrArg Select.only (same .only) :)
  case condition => exact (congrArg Select.condition (same .condition) :)
  case split => exact (congrArg Select.split (same .split) :)
  case group => exact (congrArg Select.group (same .group) :)
  case order => exact (congrArg Select.order (same .order) :)
  case limit => exact (congrArg Select.limit (same .limit) :)
  case start => exact (congrArg Select.start (same .start) :)
  case fetch => exact (congrArg Select.fetch (same .fetch) :)
  case timeout => exact (congrArg Select.timeout (same .timeout) :)
  case parallel => exact (congrArg Select.parallel (same .parallel) :)

/-! ## Creations -/

theorem Create.withPayload_alone (c : Create) (payload : Except QueryError PayloadSlot) :
    (c.alone .body).withPayload payload = (c.withPayload payload).map (alone .body) := by
  cases payload <;> rfl

theorem Create.alone_withPayload {c c' : Create} {payload : Except QueryError PayloadSlot}
    (written : c.withPayload payload = .ok c') (other : slot ≠ .body) :
    c'.alone slot = c.alone slot := by
  obtain ⟨_, _, rfl⟩ := map_eq_ok.mp written
  ext1
  case payload => exact Slot.pick_eq_of_ne other _ _ _
  all_goals rfl

theorem Create.call_alone (c : Create) (call : Call) :
    (c.alone call.slot).call call = (c.call call).map (·.map (alone call.slot)) := by
  cases call
  case assign => exact congrArg some (c.withPayload_alone _)
  case content => exact congrArg some (c.withPayload_alone _)
  all_goals rfl

theorem Create.alone_call {c c' : Create} {call : Call} (called : c.call call = some (.ok c'))
    (other : slot ≠ call.slot) : c'.alone slot = c.alone slot := by
  cases call <;> simp only [Create.call, Option.some.injEq, reduceCtorEq] at called
  case assign => exact alone_withPayload called other
  case content => exact alone_withPayload called other
  all_goals cases called
  all_goals ext1
  -- What else a call leaves as it was is the same field by field.
  case only.refl.only => exact Slot.pick_eq_of_ne other _ _ _
  case returnMode.refl.trailer => exact c.trailer.alone_setMode other _
  case returning.refl.trailer => exact c.trailer.alone_setMode other _
  case timeout.refl.trailer => exact c.trailer.alone_setTimeout other _
  case parallel.refl.trailer => exact c.trailer.alone_setParallel other
  all_goals rfl

theorem Create.eq_of_alone {c c' : Create} (same : ∀ slot, c.alone slot = c'.alone slot) :
    c = c' := by
  ext1
  case scope => exact (congrArg Create.scope (same .body) :)
  case target => exact (congrArg Create.target (same .body) :)
  case row => exact (congrArg Create.row (same .body) :)
  case input => exact (congrArg Create.input (same .body) :)
  case only => exact (congrArg Create.only (same .only) :)
  case payload => exact (congrArg Create.payload (same .body) :)
  case trailer => exact Trailer.eq_of_alone fun slot => congrArg Create.trailer (same slot)

/-! ## Updates -/

theorem Update.withPayload_alone (u : Update) (payload : Except QueryError PayloadSlot) :
    (u.alone .body).withPayload payload = (u.withPayload payload).map (alone .body) := by
  cases payload <;> rfl

theorem Update.alone_withPayload {u u' : Update} {payload : Except QueryError PayloadSlot}
    (written : u.withPayload payload = .ok u') (other : slot ≠ .body) :
    u'.alone slot = u.alone slot := by
  obtain ⟨_, _, rfl⟩ := map_eq_ok.mp written
  ext1
  case payload => exact Slot.pick_eq_of_ne other _ _ _
  all_goals rfl

theorem Update.call_alone (u : Update) (call : Call) :
    (u.alone call.slot).call call = (u.call call).map (·.map (alone call.slot)) := by
  cases call
  case assign => exact congrArg some (u.withPayload_alone _)
  case content => exact congrArg some (u.withPayload_alone _)
  case merge => exact congrArg some (u.withPayload_alone _)
  case replace => exact congrArg some (u.withPayload_alone _)
  case patch => exact congrArg some (u.withPayload_alone _)
  all_goals rfl

theorem Update.alone_call {u u' : Update} {call : Call} (called : u.call call = some (.ok u'))
    (other : slot ≠ call.slot) : u'.alone slot = u.alone slot := by
  cases call <;> simp only [Update.call, Option.some.injEq, reduceCtorEq] at called
  case assign => exact alone_withPayload called other
  case content => exact alone_withPayload called other
  case merge => exact alone_withPayload called other
  case replace => exact alone_withPayload called other
  case patch => exact alone_withPayload called other
  all_goals cases called
  all_goals ext1
  -- What else a call leaves as it was is the same field by field.
  case only.refl.only => exact Slot.pick_eq_of_ne other _ _ _
  case filter.refl.condition => exact Slot.pick_eq_of_ne other _ _ _
  case returnMode.refl.trailer => exact u.trailer.alone_setMode other _
  case returning.refl.trailer => exact u.trailer.alone_setMode other _
  case timeout.refl.trailer => exact u.trailer.alone_setTimeout other _
  case parallel.refl.trailer => exact u.trailer.alone_setParallel other
  all_goals rfl

theorem Update.eq_of_alone {u u' : Update} (same : ∀ slot, u.alone slot = u'.alone slot) :
    u = u' := by
  ext1
  case scope => exact (congrArg Update.scope (same .body) :)
  case upsert => exact (congrArg Update.upsert (same .body) :)
  case target => exact (congrArg Update.target (same .body) :)
  case row => exact (congrArg Update.row (same .body) :)
  case input => exact (congrArg Update.input (same .body) :)
  case only => exact (congrArg Update.only (same .only) :)
  case payload => exact (congrArg Update.payload (same .body) :)
  case condition => exact (congrArg Update.condition (same .condition) :)
  case trailer => exact Trailer.eq_of_alone fun slot => congrArg Update.trailer (same slot)

/-! ## Deletions -/

theorem Delete.call_alone (d : Delete) (call : Call) :
    (d.alone call.slot).call call = (d.call call).map (alone call.slot) := by
  cases call <;> rfl

theorem Delete.alone_call {d d' : Delete} {call : Call} (called : d.call call = some d')
    (other : slot ≠ call.slot) : d'.alone slot = d.alone slot := by
  cases call <;> cases called <;> ext1
  case only.refl.only => exact Slot.pick_eq_of_ne other _ _ _
  case filter.refl.condition => exact Slot.pick_eq_of_ne other _ _ _
  case returnMode.refl.trailer => exact d.trailer.alone_setMode other _
  case returning.refl.trailer => exact d.trailer.alone_setMode other _
  case timeout.refl.trailer => exact d.trailer.alone_setTimeout other _
  case parallel.refl.trailer => exact d.trailer.alone_setParallel other
  all_goals rfl

theorem Delete.eq_of_alone {d d' : Delete} (same : ∀ slot, d.alone slot = d'.alone slot) :
    d = d' := by
  ext1
  case scope => exact (congrArg Delete.scope (same .body) :)
  case target => exact (congrArg Delete.target (same .body) :)
  case row => exact (congrArg Delete.row (same .body) :)
  case only => exact (congrArg Delete.only (same .only) :)
  case condition => exact (congrArg Delete.condition (same .condition) :)
  case trailer => exact Trailer.eq_of_alone fun slot => congrArg Delete.trailer (same slot)

/-! ## Insertions -/

section Insert

variable {i i' : Insert}

theorem Insert.fields_alone (i : Insert) (names : List String) :
    (i.alone .body).fields names = (i.fields names).map (alone .body) := by
  have data : (i.alone .body).data = i.data := rfl
  rw [fields, fields, data]
  cases i.data with
  | rows _ rows => cases rows <;> rfl
  | _ => rfl

theorem Insert.values_alone (i : Insert) (row : List Json) :
    (i.alone .body).values row = (i.values row).map (alone .body) := by
  have data : (i.alone .body).data = i.data := rfl
  have input : (i.alone .body).input = i.input := rfl
  rw [values, values, data, input]
  cases i.data with
  | rows names rows =>
      dsimp only
      by_cases arity : row.length = names.length
      · rw [if_pos arity, if_pos arity]
        cases checkRow i.input names row <;> rfl
      · rw [if_neg arity, if_neg arity]
        rfl
  | _ => rfl

theorem Insert.content_alone (i : Insert) (document : Json) :
    (i.alone .body).content document = (i.content document).map (alone .body) := by
  have data : (i.alone .body).data = i.data := rfl
  have input : (i.alone .body).input = i.input := rfl
  rw [content, content, data, input]
  cases i.data with
  | rows names rows => rfl
  | _ => cases (documentsOf document).mapM i.input.parse <;> rfl

theorem Insert.onDuplicateSet_alone (i : Insert) (field : String) (value : Operand) :
    (i.alone .onDuplicate).onDuplicateSet field value =
      (i.onDuplicateSet field value).map (alone .onDuplicate) := by
  cases value with
  | expr e => rfl
  | value v =>
      have input : (i.alone .onDuplicate).input = i.input := rfl
      rw [onDuplicateSet, onDuplicateSet, input]
      cases Document.checkAssignment i.input field v <;> rfl

theorem Insert.call_alone (i : Insert) (call : Call) :
    (i.alone call.slot).call call = (i.call call).map (·.map (alone call.slot)) := by
  cases call
  case fields names => exact congrArg some (i.fields_alone names)
  case values row => exact congrArg some (i.values_alone row)
  case content document => exact congrArg some (i.content_alone document)
  case onDuplicate field value => exact congrArg some (i.onDuplicateSet_alone field value)
  all_goals rfl

/-- Other data are not seen. -/
theorem Insert.alone_data (i : Insert) (other : slot ≠ .body) (data : InsertData) :
    { i with data := data }.alone slot = i.alone slot := by
  ext1
  case data => exact Slot.pick_eq_of_ne other _ _ _
  all_goals rfl

/-- Nor are other assignments. -/
theorem Insert.alone_onDuplicate (i : Insert) (other : slot ≠ .onDuplicate)
    (assignments : List Assignment) :
    { i with onDuplicate := assignments }.alone slot = i.alone slot := by
  ext1
  case onDuplicate => exact Slot.pick_eq_of_ne other _ _ _
  all_goals rfl

theorem Insert.alone_call {i i' : Insert} {call : Call} (called : i.call call = some (.ok i'))
    (other : slot ≠ call.slot) : i'.alone slot = i.alone slot := by
  cases call <;> simp only [Insert.call, Option.some.injEq, reduceCtorEq] at called
  case fields names =>
      obtain ⟨_, rfl⟩ := eq_of_fields called
      exact i.alone_data other _
  case values row =>
      obtain ⟨_, _, _, _, _, rfl⟩ := eq_of_values called
      exact i.alone_data other _
  case content document =>
      obtain ⟨_, rfl⟩ := documents_of_content called
      exact i.alone_data other _
  case onDuplicate field value =>
      cases eq_of_onDuplicateSet called
      exact i.alone_onDuplicate other _
  case onDuplicateWith field op value =>
      cases called
      exact i.alone_onDuplicate other _
  all_goals cases called
  all_goals ext1
  -- What else a call leaves as it was is the same field by field.
  case ignore.refl.ignore => exact Slot.pick_eq_of_ne other _ _ _
  case returnMode.refl.trailer => exact i.trailer.alone_setMode other _
  case returning.refl.trailer => exact i.trailer.alone_setMode other _
  case timeout.refl.trailer => exact i.trailer.alone_setTimeout other _
  case parallel.refl.trailer => exact i.trailer.alone_setParallel other
  all_goals rfl

theorem Insert.eq_of_alone {i i' : Insert} (same : ∀ slot, i.alone slot = i'.alone slot) :
    i = i' := by
  ext1
  case scope => exact (congrArg Insert.scope (same .body) :)
  case table => exact (congrArg Insert.table (same .body) :)
  case relation => exact (congrArg Insert.relation (same .body) :)
  case row => exact (congrArg Insert.row (same .body) :)
  case input => exact (congrArg Insert.input (same .body) :)
  case ignore => exact (congrArg Insert.ignore (same .ignore) :)
  case data => exact (congrArg Insert.data (same .body) :)
  case onDuplicate => exact (congrArg Insert.onDuplicate (same .onDuplicate) :)
  case trailer => exact Trailer.eq_of_alone fun slot => congrArg Insert.trailer (same slot)

end Insert

/-! ## Relations -/

theorem Relate.withPayload_alone (r : Relate) (payload : Except QueryError PayloadSlot) :
    (r.alone .body).withPayload payload = (r.withPayload payload).map (alone .body) := by
  cases payload <;> rfl

theorem Relate.alone_withPayload {r r' : Relate} {payload : Except QueryError PayloadSlot}
    (written : r.withPayload payload = .ok r') (other : slot ≠ .body) :
    r'.alone slot = r.alone slot := by
  obtain ⟨_, _, rfl⟩ := map_eq_ok.mp written
  ext1
  case payload => exact Slot.pick_eq_of_ne other _ _ _
  all_goals rfl

theorem Relate.call_alone (r : Relate) (call : Call) :
    (r.alone call.slot).call call = (r.call call).map (·.map (alone call.slot)) := by
  cases call
  case assign => exact congrArg some (r.withPayload_alone _)
  case content => exact congrArg some (r.withPayload_alone _)
  all_goals rfl

theorem Relate.alone_call {r r' : Relate} {call : Call} (called : r.call call = some (.ok r'))
    (other : slot ≠ call.slot) : r'.alone slot = r.alone slot := by
  cases call <;> simp only [Relate.call, Option.some.injEq, reduceCtorEq] at called
  case assign => exact alone_withPayload called other
  case content => exact alone_withPayload called other
  all_goals cases called
  all_goals ext1
  -- What else a call leaves as it was is the same field by field.
  case only.refl.only => exact Slot.pick_eq_of_ne other _ _ _
  case returnMode.refl.trailer => exact r.trailer.alone_setMode other _
  case returning.refl.trailer => exact r.trailer.alone_setMode other _
  case timeout.refl.trailer => exact r.trailer.alone_setTimeout other _
  case parallel.refl.trailer => exact r.trailer.alone_setParallel other
  all_goals rfl

theorem Relate.eq_of_alone {r r' : Relate} (same : ∀ slot, r.alone slot = r'.alone slot) :
    r = r' := by
  ext1
  case scope => exact (congrArg Relate.scope (same .body) :)
  case edge => exact (congrArg Relate.edge (same .body) :)
  case source => exact (congrArg Relate.source (same .body) :)
  case target => exact (congrArg Relate.target (same .body) :)
  case row => exact (congrArg Relate.row (same .body) :)
  case input => exact (congrArg Relate.input (same .body) :)
  case only => exact (congrArg Relate.only (same .only) :)
  case payload => exact (congrArg Relate.payload (same .body) :)
  case trailer => exact Trailer.eq_of_alone fun slot => congrArg Relate.trailer (same slot)

end Slots

end GraphQuery
