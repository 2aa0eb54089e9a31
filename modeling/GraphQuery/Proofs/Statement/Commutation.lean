import GraphQuery.Proofs.Construction.SameCalls
import GraphQuery.Proofs.Statement.Slots

/-!
# Calls on different slots commute

A statement depends on the calls made on each of its slots in their order, and not on how calls on
different slots are interleaved. Neither does what a call answers, so a call that fails does so with
the same error wherever it stands among the calls on other slots.
-/

namespace GraphQuery.Statement

open Outcome

theorem call_alone (s : Statement) (c : Call) :
    (s.alone c.slot).call c = (s.call c).map (·.map (alone c.slot)) := by
  cases s with
  | select s =>
      rw [alone, call, call, s.call_alone]
      cases s.call c <;> rfl
  | create s =>
      rw [alone, call, call, s.call_alone]
      rcases s.call c with _ | (_ | _) <;> rfl
  | update s =>
      rw [alone, call, call, s.call_alone]
      rcases s.call c with _ | (_ | _) <;> rfl
  | delete s =>
      rw [alone, call, call, s.call_alone]
      cases s.call c <;> rfl
  | insert s =>
      rw [alone, call, call, s.call_alone]
      rcases s.call c with _ | (_ | _) <;> rfl
  | relate s =>
      rw [alone, call, call, s.call_alone]
      rcases s.call c with _ | (_ | _) <;> rfl

theorem alone_call {s s' : Statement} {c : Call} {slot : Slot} (called : s.call c = some (.ok s'))
    (other : slot ≠ c.slot) : s'.alone slot = s.alone slot := by
  cases s with
  | select s =>
      obtain ⟨a, done, made⟩ := Option.map_eq_some_iff.mp called
      cases made
      exact congrArg select (Select.alone_call done other)
  | create s =>
      obtain ⟨a, done, rfl⟩ := offered_map_eq_ok.mp called
      exact congrArg create (Create.alone_call done other)
  | update s =>
      obtain ⟨a, done, rfl⟩ := offered_map_eq_ok.mp called
      exact congrArg update (Update.alone_call done other)
  | delete s =>
      obtain ⟨a, done, made⟩ := Option.map_eq_some_iff.mp called
      cases made
      exact congrArg delete (Delete.alone_call done other)
  | insert s =>
      obtain ⟨a, done, rfl⟩ := offered_map_eq_ok.mp called
      exact congrArg insert (Insert.alone_call done other)
  | relate s =>
      obtain ⟨a, done, rfl⟩ := offered_map_eq_ok.mp called
      exact congrArg relate (Relate.alone_call done other)

/-- Statements of two kinds have no slot in common, and those of one kind are made of their slots. -/
theorem eq_of_alone {s t : Statement} (same : ∀ slot, s.alone slot = t.alone slot) : s = t := by
  cases s <;> cases t
  case select.select => exact congrArg select (Select.eq_of_alone fun k => select.inj (same k))
  case create.create => exact congrArg create (Create.eq_of_alone fun k => create.inj (same k))
  case update.update => exact congrArg update (Update.eq_of_alone fun k => update.inj (same k))
  case delete.delete => exact congrArg delete (Delete.eq_of_alone fun k => delete.inj (same k))
  case insert.insert => exact congrArg insert (Insert.eq_of_alone fun k => insert.inj (same k))
  case relate.relate => exact congrArg relate (Relate.eq_of_alone fun k => relate.inj (same k))
  all_goals cases same .body

theorem slotwise : Run.Slotwise step Call.slot alone where
  own s c := by
    rw [step, step, call_alone, Run.offered_map]
  others k called other := alone_call (Run.offered_eq_ok.mp called) other
  ext := eq_of_alone

/-- Two lists of calls that differ only in how calls on different slots are interleaved are answered
alike, slot by slot, and lead to the same statement: it has the same text, values and result. -/
theorem clauses_commute (s : Statement) {first second : List Call}
    (same : Call.Interleaved first second) :
    (∀ slot, (Run.answers step s first).filter (·.1.slot = slot) =
      (Run.answers step s second).filter (·.1.slot = slot)) ∧
    (Run.final step s first).compile = (Run.final step s second).compile ∧
    (∀ db, (Run.final step s first).output db = (Run.final step s second).output db) ∧
    (Run.final step s first).checksOutput = (Run.final step s second).checksOutput := by
  have equal : Run.final step s first = Run.final step s second := by
    refine eq_of_alone fun slot => ?_
    rw [slotwise.alone_final, slotwise.alone_final, same slot]
  refine ⟨?_, ?_, ?_, ?_⟩
  · intro slot
    rw [slotwise.answers_filter, slotwise.answers_filter, same slot]
  · rw [equal]
  · intro db
    rw [equal]
  · rw [equal]

end GraphQuery.Statement

namespace GraphQuery.Birthday

/-- An age is set, and a name in its place is refused. -/
def ageFirst : List Call :=
  [.assign "age" .assign (.value (.int 3)), .parallel, .assign "age" .assign (.value (.string "Ada")),
    .only, .returnMode .diff]

/-- The same calls, those on the payload as late as possible. -/
def ageLast : List Call :=
  [.only, .returnMode .diff, .parallel, .assign "age" .assign (.value (.int 3)),
    .assign "age" .assign (.value (.string "Ada"))]

theorem interleaved : Call.Interleaved ageFirst ageLast := by
  intro slot
  cases slot <;> rfl

/-- The two calls on the payload are the only ones that share a slot; the second one fails either
way. -/
theorem clauses_commute_birthday :
    ∃ u : Update, Update.of People.schema ⟨0⟩ false (.table "person") = .ok u ∧
      (Run.answers Statement.step (.update u) ageFirst).filter (·.1.slot = .body) =
        (Run.answers Statement.step (.update u) ageLast).filter (·.1.slot = .body) ∧
      (Run.final Statement.step (.update u) ageFirst).compile =
        (Run.final Statement.step (.update u) ageLast).compile ∧
      (Run.final Statement.step (.update u) ageFirst).compile.text =
        "UPDATE ONLY person SET age = $_v0 RETURN DIFF PARALLEL" := by
  refine ⟨_, rfl, ?_, ?_, ?_⟩
  · exact (Statement.clauses_commute _ interleaved).1 .body
  · exact (Statement.clauses_commute _ interleaved).2.1
  · rfl

end GraphQuery.Birthday
