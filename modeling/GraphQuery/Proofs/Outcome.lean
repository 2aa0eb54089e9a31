/-!
# Computations that may fail

What is known when a computation in `Except` succeeds, by the way it is put together, and whether it
succeeds at all. Of several answers in `Option` the agreed one is what all of them give.
-/

namespace GraphQuery.Outcome

variable {α β ε ε' : Type}

@[simp] theorem isOk_ok (a : α) : (Except.ok a : Except ε α).isOk = true := rfl

@[simp] theorem isOk_error (e : ε) : (Except.error e : Except ε α).isOk = false := rfl

theorem isOk_mapError (f : ε → ε') (r : Except ε α) : (r.mapError f).isOk = r.isOk := by
  cases r <;> rfl

theorem isOk_map (f : α → β) (r : Except ε α) : (r.map f).isOk = r.isOk := by
  cases r <;> rfl

/-- A step after another succeeds when both do. -/
theorem bind_eq_ok {r : Except ε α} {f : α → Except ε β} {b : β} :
    (r >>= f) = .ok b ↔ ∃ a, r = .ok a ∧ f a = .ok b := by
  cases r with
  | error e => simp [bind, Except.bind]
  | ok a => simp [bind, Except.bind]

theorem bind_eq_error {r : Except ε α} {f : α → Except ε β} {e : ε} :
    (r >>= f) = .error e ↔ r = .error e ∨ ∃ a, r = .ok a ∧ f a = .error e := by
  cases r with
  | error e => simp [bind, Except.bind]
  | ok a => simp [bind, Except.bind]

theorem isOk_bind {r : Except ε α} {f : α → Except ε β} :
    (r >>= f).isOk = true ↔ ∃ a, r = .ok a ∧ (f a).isOk = true := by
  cases r with
  | error e => exact iff_of_false Bool.false_ne_true fun ⟨_, made, _⟩ => nomatch made
  | ok a => simp [bind, Except.bind]

theorem map_eq_ok {f : α → β} {r : Except ε α} {b : β} :
    r.map f = .ok b ↔ ∃ a, r = .ok a ∧ f a = b := by
  cases r with
  | error e => simp [Except.map]
  | ok a => simp [Except.map]

theorem map_eq_error {f : α → β} {r : Except ε α} {e : ε} : r.map f = .error e ↔ r = .error e := by
  cases r <;> simp [Except.map]

theorem mapError_eq_ok {f : ε → ε'} {r : Except ε α} {a : α} :
    r.mapError f = .ok a ↔ r = .ok a := by
  refine ⟨?_, ?_⟩
  · intro mapped
    cases r with
    | error e => cases mapped
    | ok b =>
        cases mapped
        rfl
  · intro equal
    rw [equal]
    rfl

theorem mapError_eq_error {f : ε → ε'} {r : Except ε α} {e : ε'} :
    r.mapError f = .error e ↔ ∃ e', r = .error e' ∧ f e' = e := by
  refine ⟨?_, ?_⟩
  · intro mapped
    cases r with
    | error e' =>
        cases mapped
        exact ⟨e', rfl, rfl⟩
    | ok a => cases mapped
  · rintro ⟨e', rfl, rfl⟩
    rfl

/-- A computation that may not be offered at all, and that may fail. -/
theorem offered_map_eq_ok {f : α → β} {offer : Option (Except ε α)} {b : β} :
    (offer.map fun r => r.map f) = some (.ok b) ↔ ∃ a, offer = some (.ok a) ∧ f a = b := by
  cases offer with
  | none => simp
  | some r =>
      rw [Option.map_some, Option.some.injEq, map_eq_ok]
      simp only [Option.some.injEq]

/-! ## Answers that agree -/

/-- The answer that all give: none if nobody gives one, or if two differ. -/
def agreed [BEq α] : List (Option α) → Option α
  | [] => none
  | first :: rest => if rest.all fun answer => answer == first then first else none

theorem agreed_eq_some_iff [BEq α] [LawfulBEq α] {answers : List (Option α)} {a : α} :
    agreed answers = some a ↔ answers ≠ [] ∧ ∀ answer ∈ answers, answer = some a := by
  cases answers with
  | nil => simp [agreed]
  | cons first rest =>
      rw [agreed]
      by_cases same : (rest.all fun answer => answer == first) = true
      · rw [if_pos same]
        simp only [List.all_eq_true, beq_iff_eq] at same
        constructor
        · rintro rfl
          simpa using same
        · rintro ⟨_, each⟩
          exact each first List.mem_cons_self
      · rw [if_neg same]
        refine ⟨nofun, ?_⟩
        rintro ⟨_, each⟩
        refine absurd ?_ same
        simp only [List.all_eq_true, beq_iff_eq]
        intro answer member
        rw [each first List.mem_cons_self, each answer (List.mem_cons_of_mem _ member)]

end GraphQuery.Outcome
