import GraphQuery.Proofs.Outcome
import GraphQuery.Run

/-!
# Invariants of runs

What one successful call preserves holds behind every run, and it may depend on the calls that have
succeeded. If every call reads and writes one slot of the state, a run is the runs of its slots side by
side.
-/

namespace GraphQuery.Run

variable {σ α ε κ : Type} {step : σ → α → Except ε σ} {s s' : σ} {c : α} {e : ε}

theorem offered_eq_ok {r : Option (Except ε α)} {a : α} :
    offered r = .ok a ↔ r = some (.ok a) := by
  cases r with
  | none => simp [offered]
  | some r => rw [offered, Outcome.mapError_eq_ok, Option.some.injEq]

theorem offered_map {β : Type} (f : α → β) (r : Option (Except ε α)) :
    offered (r.map (·.map f)) = (offered r).map f := by
  rcases r with _ | (_ | _) <;> rfl

theorem attempt_of_ok (done : step s c = .ok s') : attempt step s c = s' := by
  rw [attempt, done]

theorem attempt_of_error (failed : step s c = .error e) : attempt step s c = s := by
  rw [attempt, failed]

@[simp] theorem final_nil (s : σ) : final step s [] = s := rfl

@[simp] theorem final_cons (s : σ) (c : α) (rest : List α) :
    final step s (c :: rest) = final step (attempt step s c) rest := rfl

theorem accepted_cons_of_ok (done : step s c = .ok s') (rest : List α) :
    accepted step s (c :: rest) = c :: accepted step s' rest := by
  rw [accepted, done]

theorem accepted_cons_of_error (failed : step s c = .error e) (rest : List α) :
    accepted step s (c :: rest) = accepted step s rest := by
  rw [accepted, failed]

/-- What holds in the beginning and is preserved by every call that succeeds holds behind a run. It
is about the calls that have succeeded so far and the state that they have led to. -/
theorem final_induction {P : List α → σ → Prop} (start : P [] s)
    (next : ∀ done s c s', P done s → step s c = .ok s' → P (done ++ [c]) s') (calls : List α) :
    P (accepted step s calls) (final step s calls) := by
  -- The induction is on the calls still to come, behind any that have succeeded.
  suffices behind : ∀ done s, P done s → P (done ++ accepted step s calls) (final step s calls) from
    behind [] s start
  clear start
  induction calls with
  | nil =>
      intro done s holds
      rw [accepted, List.append_nil]
      exact holds
  | cons c rest ih =>
      intro done s holds
      cases called : step s c with
      | ok s' =>
          rw [accepted_cons_of_ok called, final_cons, attempt_of_ok called, List.append_cons]
          exact ih (done ++ [c]) s' (next done s c s' holds called)
      | error e =>
          rw [accepted_cons_of_error called, final_cons, attempt_of_error called]
          exact ih done s holds

/-- The same for what is about the state alone. -/
theorem final_invariant {P : σ → Prop} (start : P s)
    (next : ∀ s c s', P s → step s c = .ok s' → P s') (calls : List α) : P (final step s calls) :=
  final_induction (P := fun _ s => P s) start (fun _ => next) calls

/-! ## Slots -/

/-- A state is made of slots: `alone k` empties all but slot `k`. A call answers and does to its own
slot the same whatever stands in the others, and it leaves those as they are. -/
structure Slotwise (step : σ → α → Except ε σ) (slot : α → κ) (alone : κ → σ → σ) : Prop where
  own : ∀ s c, step (alone (slot c) s) c = (step s c).map (alone (slot c))
  others : ∀ {s c s'} k, step s c = .ok s' → k ≠ slot c → alone k s' = alone k s
  ext : ∀ {s t}, (∀ k, alone k s = alone k t) → s = t

namespace Slotwise

variable {slot : α → κ} {alone : κ → σ → σ}

theorem attempt_own (slots : Slotwise step slot alone) (s : σ) (c : α) :
    attempt step (alone (slot c) s) c = alone (slot c) (attempt step s c) := by
  have called := slots.own s c
  cases result : step s c with
  | ok s' =>
      rw [result] at called
      rw [attempt_of_ok result, attempt_of_ok called]
  | error e =>
      rw [result] at called
      rw [attempt_of_error result, attempt_of_error called]

theorem attempt_other (slots : Slotwise step slot alone) (s : σ) {c : α} {k : κ}
    (other : k ≠ slot c) : alone k (attempt step s c) = alone k s := by
  cases result : step s c with
  | ok s' =>
      rw [attempt_of_ok result]
      exact slots.others k result other
  | error e => rw [attempt_of_error result]

theorem answer_own (slots : Slotwise step slot alone) (s : σ) (c : α) :
    (step (alone (slot c) s) c).map (fun _ => ()) = (step s c).map fun _ => () := by
  rw [slots.own s c]
  cases step s c <;> rfl

variable [DecidableEq κ]

/-- What a run leaves in a slot is what the calls on that slot leave in it. -/
theorem alone_final (slots : Slotwise step slot alone) (k : κ) (s : σ) (calls : List α) :
    alone k (final step s calls) = final step (alone k s) (calls.filter (slot · = k)) := by
  induction calls generalizing s with
  | nil => rfl
  | cons c rest ih =>
      rw [final_cons, ih]
      by_cases own : slot c = k
      · subst own
        rw [List.filter_cons_of_pos (by simp), final_cons, slots.attempt_own]
      · rw [List.filter_cons_of_neg (by simpa using own), slots.attempt_other s (Ne.symm own)]

/-- The calls on a slot are answered as they are without the others. -/
theorem answers_filter (slots : Slotwise step slot alone) (k : κ) (s : σ) (calls : List α) :
    (answers step s calls).filter (slot ·.1 = k) =
      answers step (alone k s) (calls.filter (slot · = k)) := by
  induction calls generalizing s with
  | nil => rfl
  | cons c rest ih =>
      by_cases own : slot c = k
      · subst own
        rw [answers, List.filter_cons_of_pos (by simp), ih, List.filter_cons_of_pos (by simp),
          answers, slots.answer_own, slots.attempt_own]
      · rw [answers, List.filter_cons_of_neg (by simpa using own), ih,
          List.filter_cons_of_neg (by simpa using own), slots.attempt_other s (Ne.symm own)]

end Slotwise

end GraphQuery.Run
