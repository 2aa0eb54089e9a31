import GraphQuery.Proofs.Outcome
import GraphQuery.Proofs.Run
import GraphQuery.Query.Pending

/-!
# One mode for each payload

Every call on a payload slot is one form: the clause must be admitted, the argument must pass its
check, and what it gives is put behind what is there. So the first call that succeeds chooses the mode,
a call of another mode is refused whatever its argument is, and a call that fails has not written.
-/

namespace GraphQuery

open Outcome

/-- Of documents that were put together already only the result matters. -/
theorem Document.mergeAll_append (documents more : List Json) :
    mergeAll (documents ++ more) = mergeAll ((mergeAll documents).toList ++ more) := by
  cases documents with
  | nil => rfl
  | cons first rest => exact congrArg some List.foldl_append

namespace Payload

variable {p q r : Payload}

theorem absorb_of_ne (other : p.clause ≠ q.clause) :
    p.absorb q = .error (.conflict q.clause p.clause) := by
  cases p <;> cases q <;> first | rfl | exact absurd rfl other

theorem absorb_of_eq (same : p.clause = q.clause) : ∃ r, p.absorb q = .ok r := by
  cases p <;> cases q <;> first | exact ⟨_, rfl⟩ | cases same

/-- Both payloads have the mode of what comes out. -/
theorem clause_of_absorb (absorbed : p.absorb q = .ok r) :
    r.clause = p.clause ∧ r.clause = q.clause := by
  cases p <;> cases q <;> cases absorbed <;> exact ⟨rfl, rfl⟩

theorem assignments_of_absorb (absorbed : p.absorb q = .ok r) :
    r.assignments = p.assignments ++ q.assignments := by
  cases p <;> cases q <;> cases absorbed <;> rfl

theorem operations_of_absorb (absorbed : p.absorb q = .ok r) :
    r.operations = p.operations ++ q.operations := by
  cases p <;> cases q <;> cases absorbed <;> rfl

theorem document_of_absorb (absorbed : p.absorb q = .ok r) :
    r.document? = Document.mergeAll (p.document?.toList ++ q.document?.toList) := by
  cases p <;> cases q <;> cases absorbed <;> rfl

end Payload

namespace PayloadCall

variable {input : Descriptor} {scope : ScopeId} {c : PayloadCall} {p : Payload}

theorem clause_of_payload (written : c.payload input scope = .ok p) : p.clause = c.clause := by
  cases c with
  | patch operations =>
      cases written
      rfl
  | _ =>
      obtain ⟨_, _, rfl⟩ := map_eq_ok.mp written
      rfl

/-- What is written has the parts that the call gives. -/
theorem parts_of_payload (written : c.payload input scope = .ok p) :
    p.assignments = c.assignments scope ∧ p.operations = c.operations ∧
      p.document? = c.document? input := by
  cases c with
  | assign field op value =>
      obtain ⟨_, _, rfl⟩ := map_eq_ok.mp written
      exact ⟨rfl, rfl, rfl⟩
  | content document =>
      obtain ⟨parsed, parses, rfl⟩ := map_eq_ok.mp written
      refine ⟨rfl, rfl, ?_⟩
      rw [document?, parses]
      rfl
  | merge document =>
      obtain ⟨_, _, rfl⟩ := map_eq_ok.mp written
      exact ⟨rfl, rfl, rfl⟩
  | patch operations =>
      cases written
      exact ⟨rfl, rfl, rfl⟩
  | replace document =>
      obtain ⟨parsed, parses, rfl⟩ := map_eq_ok.mp written
      refine ⟨rfl, rfl, ?_⟩
      rw [document?, parses]
      rfl

end PayloadCall

namespace PayloadSlot

variable {input : Descriptor} {scope : ScopeId} {slot slot' : PayloadSlot} {c : PayloadCall}

/-! ## One form of calls -/

theorem other_of_not_admits {clause : Clause} (refuses : ¬ slot.Admits clause) :
    ∃ existing, slot.mode = some existing ∧ existing ≠ clause := by
  simpa [Admits] using refuses

theorem accepts_of_admits {clause : Clause} (admits : slot.Admits clause) :
    slot.accepts clause = .ok () := by
  cases slot with
  | none => rfl
  | some existing => exact if_pos (admits existing.clause rfl)

theorem accepts_of_ne {clause existing : Clause} (there : slot.mode = some existing)
    (other : existing ≠ clause) : slot.accepts clause = .error (.conflict clause existing) := by
  cases slot with
  | none => cases there
  | some payload =>
      cases there
      exact if_neg other

theorem push_of_ne {existing : Clause} (p : Payload) (there : slot.mode = some existing)
    (other : existing ≠ p.clause) : slot.push p = .error (.conflict p.clause existing) := by
  cases slot with
  | none => cases there
  | some payload =>
      cases there
      rw [push, Payload.absorb_of_ne other]
      rfl

theorem push_of_admits {p : Payload} (admits : slot.Admits p.clause) :
    ∃ slot', slot.push p = .ok slot' := by
  cases slot with
  | none => exact ⟨some p, rfl⟩
  | some existing =>
      obtain ⟨q, absorbed⟩ := Payload.absorb_of_eq (admits existing.clause rfl)
      refine ⟨some q, ?_⟩
      rw [push, absorbed]
      rfl

theorem typed_map_bind {α β γ : Type} (r : Except TypeError α) (f : α → β)
    (g : β → Except QueryError γ) : (typed (r.map f) >>= g) = typed r >>= fun a => g (f a) := by
  cases r <;> rfl

/-- A patch is refused by its push, with the error that the others have before they check. -/
theorem call_eq (slot : PayloadSlot) (c : PayloadCall) :
    slot.call input scope c =
      usage (slot.accepts c.clause) >>= fun _ =>
        typed (c.payload input scope) >>= fun p => usage (slot.push p) := by
  cases c with
  | assign field op value =>
      rw [PayloadCall.payload, typed_map_bind]
      rcases op with _ | _ | _ <;> rcases value with _ | _ <;> rfl
  | content document =>
      rw [PayloadCall.payload, typed_map_bind]
      rfl
  | merge document =>
      rw [PayloadCall.payload, typed_map_bind]
      rfl
  | patch operations =>
      by_cases admits : slot.Admits .patch
      · rw [PayloadCall.clause, accepts_of_admits admits]
        rfl
      · obtain ⟨existing, there, other⟩ := other_of_not_admits admits
        have refused := push_of_ne (.patch operations) there other
        rw [PayloadCall.clause, accepts_of_ne there other, call, patch, refused]
        rfl
  | replace document =>
      rw [PayloadCall.payload, typed_map_bind]
      rfl

/-- What a call finds: another clause in use, or an argument that does not pass, or neither. -/
theorem call_cases (input : Descriptor) (scope : ScopeId) (slot : PayloadSlot) (c : PayloadCall) :
    (∃ existing, slot.mode = some existing ∧ existing ≠ c.clause ∧
      slot.call input scope c = .error (.usage (.conflict c.clause existing))) ∨
    (∃ e, slot.Admits c.clause ∧ c.payload input scope = .error e ∧
      slot.call input scope c = .error (.type e)) ∨
    (∃ p slot', slot.Admits c.clause ∧ c.payload input scope = .ok p ∧ slot.push p = .ok slot' ∧
      slot.call input scope c = .ok slot') := by
  by_cases admits : slot.Admits c.clause
  · refine .inr ?_
    rw [call_eq, accepts_of_admits admits]
    cases checked : c.payload input scope with
    | error e => exact .inl ⟨e, admits, rfl, rfl⟩
    | ok p =>
        obtain ⟨slot', pushed⟩ := push_of_admits (PayloadCall.clause_of_payload checked ▸ admits)
        refine .inr ⟨p, slot', admits, rfl, pushed, ?_⟩
        show usage (slot.push p) = .ok slot'
        rw [pushed]
        rfl
  · obtain ⟨existing, there, other⟩ := other_of_not_admits admits
    refine .inl ⟨existing, there, other, ?_⟩
    rw [call_eq, accepts_of_ne there other]
    rfl

theorem call_eq_conflict {clause existing : Clause} :
    slot.call input scope c = .error (.usage (.conflict clause existing)) ↔
      clause = c.clause ∧ slot.mode = some existing ∧ existing ≠ c.clause := by
  refine ⟨?_, ?_⟩
  · intro refused
    obtain ⟨there, known, other, result⟩ | ⟨e, _, _, result⟩ | ⟨p, slot', _, _, _, result⟩ :=
      call_cases input scope slot c
    · cases result.symm.trans refused
      exact ⟨rfl, known, other⟩
    · cases result.symm.trans refused
    · cases result.symm.trans refused
  · rintro ⟨rfl, known, other⟩
    obtain ⟨there, known', _, result⟩ | ⟨_, admits, _⟩ | ⟨_, _, admits, _⟩ :=
      call_cases input scope slot c
    · cases known.symm.trans known'
      exact result
    · exact absurd (admits existing known) other
    · exact absurd (admits existing known) other

theorem call_eq_type {e : TypeError} :
    slot.call input scope c = .error (.type e) ↔
      slot.Admits c.clause ∧ c.payload input scope = .error e := by
  refine ⟨?_, ?_⟩
  · intro refused
    obtain ⟨_, _, _, result⟩ | ⟨_, admits, checked, result⟩ | ⟨_, _, _, _, _, result⟩ :=
      call_cases input scope slot c
    · cases result.symm.trans refused
    · cases result.symm.trans refused
      exact ⟨admits, checked⟩
    · cases result.symm.trans refused
  · rintro ⟨admits, checked⟩
    rw [call_eq, accepts_of_admits admits, checked]
    rfl

theorem push_of_call (called : slot.call input scope c = .ok slot') :
    slot.Admits c.clause ∧ ∃ p, c.payload input scope = .ok p ∧ slot.push p = .ok slot' := by
  obtain ⟨_, _, _, result⟩ | ⟨_, _, _, result⟩ | ⟨p, _, admits, checked, pushed, result⟩ :=
    call_cases input scope slot c
  · cases result.symm.trans called
  · cases result.symm.trans called
  · cases result.symm.trans called
    exact ⟨admits, p, checked, pushed⟩

theorem isOk_call :
    (slot.call input scope c).isOk = true ↔
      slot.Admits c.clause ∧ (c.payload input scope).isOk = true := by
  obtain ⟨existing, there, other, result⟩ | ⟨_, _, checked, result⟩ |
      ⟨_, _, admits, checked, _, result⟩ := call_cases input scope slot c
  · have refuses : ¬ slot.Admits c.clause := fun admits => other (admits existing there)
    simp [result, refuses]
  · simp [result, checked]
  · simp [result, checked, admits]

/-! ## In place -/

/-- The answer of a call and what it leaves: the new slot, or the old one if it fails. -/
def settled (slot : PayloadSlot) :
    Except QueryError PayloadSlot → Except QueryError Unit × PayloadSlot
  | .ok slot' => (.ok (), slot')
  | .error e => (.error e, slot)

end PayloadSlot

namespace Edit

open PayloadSlot

variable {slot : PayloadSlot}

theorem run_lift {α : Type} (r : Except QueryError α) : (lift r).run.run slot = (r, slot) := by
  cases r <;> rfl

theorem run_allow (clause : Clause) :
    (allow clause).run.run slot = (usage (slot.accepts clause), slot) := by
  cases slot with
  | none => rfl
  | some existing =>
      show (if existing.clause = clause then pure ()
          else throw (.usage (.conflict clause existing.clause)) : Edit Unit).run.run (some existing) =
        (usage (if existing.clause = clause then .ok () else .error (.conflict clause existing.clause)),
          some existing)
      split
      · rfl
      · rfl

/-- A step that reads the slot, and the steps behind it. -/
theorem run_bind {α : Type} {m : Edit α} {f : α → Edit Unit} {r : Except QueryError α}
    {g : α → Except QueryError PayloadSlot} (reads : m.run.run slot = (r, slot))
    (behind : ∀ a, (f a).run.run slot = settled slot (g a)) :
    (m >>= f).run.run slot = settled slot (r >>= g) := by
  rw [ExceptT.run_bind, StateT.run_bind, reads]
  cases r with
  | error e => rfl
  | ok a => exact behind a

theorem run_push (p : Payload) :
    (push p).run.run slot = settled slot (usage (slot.push p)) := by
  cases slot with
  | none => rfl
  | some existing =>
      have same : usage (PayloadSlot.push (some existing) p) =
          usage (existing.absorb p) >>= fun q => .ok (some q) := by
        rw [PayloadSlot.push]
        cases existing.absorb p <;> rfl
      rw [same]
      exact run_bind (run_lift _) fun _ => rfl

end Edit

namespace PayloadSlot

variable {input : Descriptor} {scope : ScopeId} {slot slot' : PayloadSlot} {c : PayloadCall}

theorem perform_eq (slot : PayloadSlot) (c : PayloadCall) :
    slot.perform input scope c = settled slot (slot.call input scope c) := by
  cases c with
  | assign field op value =>
      -- Only a raw value that is assigned as it is has a step of its own.
      have pushed (_ : Unit) := @Edit.run_push slot (.set [⟨field, op, value.lift scope⟩])
      rcases op with _ | _ | _ <;> rcases value with v | e
      case assign.value =>
        exact Edit.run_bind (Edit.run_allow .set) fun _ => Edit.run_bind (Edit.run_lift _) pushed
      all_goals exact Edit.run_bind (Edit.run_allow .set) pushed
  | content document =>
      exact Edit.run_bind (Edit.run_allow .content) fun _ =>
        Edit.run_bind (Edit.run_lift _) fun parsed => Edit.run_push (.content parsed)
  | merge document =>
      exact Edit.run_bind (Edit.run_allow .merge) fun _ =>
        Edit.run_bind (Edit.run_lift _) fun _ => Edit.run_push (.merge document)
  | patch operations => exact Edit.run_push (.patch operations)
  | replace document =>
      exact Edit.run_bind (Edit.run_allow .replace) fun _ =>
        Edit.run_bind (Edit.run_lift _) fun parsed => Edit.run_push (.replace parsed)

theorem performAll_eq (slot : PayloadSlot) (calls : List PayloadCall) :
    slot.performAll input scope calls = Run.final (call input scope) slot calls := by
  have same : (fun (s : PayloadSlot) c => (s.perform input scope c).2) =
      Run.attempt (call input scope) := by
    funext s c
    rw [perform_eq, Run.attempt]
    cases s.call input scope c <;> rfl
  rw [performAll, same, Run.final]

/-! ## Runs -/

theorem mode_of_call (called : slot.call input scope c = .ok slot') : slot'.mode = some c.clause := by
  obtain ⟨_, p, checked, pushed⟩ := push_of_call called
  rw [← PayloadCall.clause_of_payload checked]
  cases slot with
  | none =>
      cases pushed
      rfl
  | some existing =>
      obtain ⟨q, absorbed, rfl⟩ := map_eq_ok.mp pushed
      exact congrArg some (Payload.clause_of_absorb absorbed).2

theorem mode_stays {clause : Clause} (there : slot.mode = some clause)
    (called : slot.call input scope c = .ok slot') : slot'.mode = some clause := by
  obtain ⟨admits, _⟩ := push_of_call called
  rw [mode_of_call called, admits clause there]

namespace Holds

variable {done : List PayloadCall}

theorem start (input : Descriptor) (scope : ScopeId) : Holds input scope [] none where
  mode := rfl
  assignments _ there := nomatch there
  operations _ there := nomatch there
  document _ there := nomatch there

theorem next (holds : Holds input scope done slot) (called : slot.call input scope c = .ok slot') :
    Holds input scope (done ++ [c]) slot' := by
  obtain ⟨_, p, checked, pushed⟩ := push_of_call called
  have mode := mode_of_call called
  obtain ⟨assignments, operations, document⟩ := PayloadCall.parts_of_payload checked
  have last : (c.document? input).toList = [c].filterMap (·.document? input) := by
    cases here : c.document? input with
    | none => rw [List.filterMap_cons_none here, List.filterMap_nil, Option.toList_none]
    | some d => rw [List.filterMap_cons_some here, List.filterMap_nil, Option.toList_some]
  cases slot with
  | none =>
      -- This is the first call that succeeds.
      cases pushed
      obtain rfl : done = [] := by simpa [PayloadSlot.mode] using holds.mode.symm
      refine ⟨mode, ?_, ?_, ?_⟩
      · rintro _ ⟨⟩
        simpa using assignments
      · rintro _ ⟨⟩
        simpa using operations
      · rintro _ ⟨⟩
        rw [document, List.nil_append, ← last]
        cases c.document? input <;> rfl
  | some existing =>
      obtain ⟨q, absorbed, rfl⟩ := map_eq_ok.mp pushed
      have first := holds.mode
      refine ⟨?_, ?_, ?_, ?_⟩
      · cases done with
        | nil => cases first
        | cons c' rest => exact (congrArg some (Payload.clause_of_absorb absorbed).1).trans first
      · rintro _ ⟨⟩
        rw [Payload.assignments_of_absorb absorbed, holds.assignments existing rfl, assignments,
          List.flatMap_append, List.flatMap_singleton]
      · rintro _ ⟨⟩
        rw [Payload.operations_of_absorb absorbed, holds.operations existing rfl, operations,
          List.flatMap_append, List.flatMap_singleton]
      · rintro _ ⟨⟩
        rw [Payload.document_of_absorb absorbed, holds.document existing rfl, document,
          List.filterMap_append, ← last, ← Document.mergeAll_append]

end Holds

theorem answers (input : Descriptor) (scope : ScopeId) (slot : PayloadSlot) (c : PayloadCall) :
    slot.Answers input scope c where
  conflict _ _ := call_eq_conflict
  type _ := call_eq_type
  succeeds := isOk_call
  unchanged e failed := by rw [perform_eq, failed, settled]
  stored slot' called := by rw [perform_eq, called, settled]

/-- Behind any calls, made in place, the mode of a slot is that of the first call that has succeeded,
and it stays. A call is refused for its clause exactly if the mode is another one, and otherwise fails
exactly if its argument does; one that fails has left the slot as it was. Assignments and patches hold
what the calls that have succeeded gave, in their order. -/
theorem modes_exclusive (input : Descriptor) (scope : ScopeId) (calls : List PayloadCall) :
    let slot := Run.final (call input scope) none calls
    let done := Run.accepted (call input scope) none calls
    performAll input scope none calls = slot ∧
    slot.mode = done.head?.map PayloadCall.clause ∧
    (∀ clause more, slot.mode = some clause →
      (Run.final (call input scope) slot more).mode = some clause) ∧
    (∀ c, slot.Answers input scope c) ∧
    (∀ assignments, slot = some (.set assignments) →
      assignments = done.flatMap (PayloadCall.assignments scope)) ∧
    (∀ operations, slot = some (.patch operations) →
      operations = done.flatMap PayloadCall.operations) := by
  intro slot done
  have holds : Holds input scope done slot :=
    Run.final_induction (Holds.start input scope) (fun _ _ _ _ before called => before.next called)
      calls
  refine ⟨performAll_eq none calls, holds.mode, ?_, answers input scope slot, ?_, ?_⟩
  · intro clause more there
    exact Run.final_invariant (P := fun s => s.mode = some clause) there
      (fun _ _ _ before called => mode_stays before called) more
  · intro assignments there
    exact holds.assignments _ there
  · intro operations there
    exact holds.operations _ there

end PayloadSlot

end GraphQuery
