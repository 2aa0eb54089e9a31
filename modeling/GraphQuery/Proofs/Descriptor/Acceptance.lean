import GraphQuery.Proofs.Descriptor.Parsing

/-!
# Checking and parsing accept the same values

`Descriptor.check` and `Descriptor.parse` walk a descriptor separately: the one takes absence as a
value like any other, the other asks `acceptsAbsent` before it looks at a value. The walks agree on
every descriptor, whatever its unions and options look like, and on every possibly absent value.
-/

namespace GraphQuery.Descriptor

open Outcome

/-- A traversal succeeds when every step does. -/
theorem isOk_traverseFrom {α β ε : Type} (f : Nat → α → Except ε β) (accepts : α → Bool)
    (agree : ∀ i a, (f i a).isOk = accepts a) (i : Nat) (as : List α) :
    (traverseFrom f i as).isOk = as.all accepts := by
  induction as generalizing i with
  | nil => rfl
  | cons a rest ih =>
      have head := agree i a
      have tail := ih (i + 1)
      rw [List.all_cons, ← head, ← tail, traverseFrom_cons]
      cases f i a with
      | error e => rfl
      | ok b => exact isOk_map (b :: ·) _

mutual

/-- Absence is checked by the descriptor alone. -/
theorem check_none (t : Descriptor) : t.check none = t.acceptsAbsent := by
  cases t with
  | union alts =>
      rw [check, acceptsAbsent]
      exact checkAny_none alts
  | _ => simp [check, acceptsAbsent]

theorem checkAny_none (alts : List Descriptor) :
    checkAny alts none = anyAcceptsAbsent alts := by
  cases alts with
  | nil => rfl
  | cons t rest => rw [checkAny, anyAcceptsAbsent, check_none t, checkAny_none rest]

end

mutual

/-- A present value parses exactly when it has the shape. -/
theorem isOk_parse (t : Descriptor) (v : Json) : (t.parse v).isOk = t.check (some v) := by
  cases t with
  | option inner =>
      rw [parse, check]
      exact isOk_parse inner v
  | union alts =>
      rw [parse, check, ← isSome_parseFirst alts v]
      cases parseFirst alts v <;> rfl
  | object fields =>
      cases v with
      | object entries =>
          rw [parse_object, isOk_map, check]
          exact isOk_parseFields fields entries
      | _ => simp [parse, check, acceptsScalar]
  | list item =>
      cases v with
      | array xs =>
          have step : ∀ (i : Nat) (x : Json),
              ((parse item x).mapError (TypeError.under (.item i))).isOk = check item (some x) := by
            intro i x
            rw [isOk_mapError]
            exact isOk_parse item x
          rw [parse_list, isOk_map, check]
          exact isOk_traverseFrom _ _ step 0 xs
      | _ => simp [parse, check, acceptsScalar]
  | tuple items =>
      cases v with
      | array xs =>
          rw [check, ← isOk_parseItems 0 items xs]
          by_cases lengths : items.length = xs.length
          · rw [parse_tuple lengths, isOk_map, decide_eq_true lengths, Bool.true_and]
          · rw [parse_tuple_of_ne lengths, decide_eq_false lengths]
            rfl
      | _ => simp [parse, check, acceptsScalar]
  | absent => simp [parse, check, acceptsScalar]
  | _ =>
      simp only [parse, check]
      split <;> simp_all

theorem isSome_parseFirst (alts : List Descriptor) (v : Json) :
    (parseFirst alts v).isSome = checkAny alts (some v) := by
  cases alts with
  | nil => rfl
  | cons t rest =>
      rw [parseFirst, checkAny, ← isOk_parse t v, ← isSome_parseFirst rest v]
      cases parse t v <;> rfl

/-- Here the two walks treat absence differently: the parser asks the descriptor before it descends,
the checker descends with nothing. -/
theorem isOk_parseFields (fields : List (String × Descriptor)) (entries : List (String × Json)) :
    (parseFields fields entries).isOk = checkFields fields entries := by
  cases fields with
  | nil => rfl
  | cons field rest =>
      obtain ⟨name, t⟩ := field
      have tail := isOk_parseFields rest entries
      rw [parseFields, checkFields, ← tail]
      cases entries.lookup name with
      | none =>
          rw [check_none]
          cases t.acceptsAbsent <;> rfl
      | some v =>
          dsimp only
          rw [← isOk_parse t v]
          cases parse t v with
          | error e => rfl
          | ok w => cases parseFields rest entries <;> rfl

/-- The parser compares the lengths once and in front, the checker at the end of the shorter list. -/
theorem isOk_parseItems (position : Nat) (ts : List Descriptor) (xs : List Json) :
    (decide (ts.length = xs.length) && (parseItems position ts xs).isOk) = checkItems ts xs := by
  cases ts with
  | nil => cases xs <;> simp [parseItems, checkItems]
  | cons t ts =>
      cases xs with
      | nil => simp [checkItems]
      | cons x xs =>
          have tail := isOk_parseItems (position + 1) ts xs
          rw [checkItems, ← tail, ← isOk_parse t x, parseItems_cons]
          cases parse t x with
          | error e => exact Bool.and_false _
          | ok y =>
              show (_ && ((parseItems (position + 1) ts xs).map (y :: ·)).isOk) = _
              rw [isOk_map]
              simp

end

theorem validate_iff_parse {t : Descriptor} {v : Json} :
    t.validate v = true ↔ ∃ w, t.parse v = .ok w := by
  rw [validate, ← isOk_parse]
  cases t.parse v <;> simp

theorem isOk_parseSlot (t : Descriptor) (x : Option Json) : (t.parseSlot x).isOk = t.check x := by
  cases x with
  | none =>
      rw [parseSlot, check_none]
      cases t.acceptsAbsent <;> rfl
  | some v =>
      rw [parseSlot, isOk_map]
      exact isOk_parse t v

/-- Parsing accepts exactly what checking accepts: present values, the absent value, and so every
possibly absent value. -/
theorem check_agrees_with_parse (t : Descriptor) :
    (∀ v, t.validate v = (t.parse v).isOk) ∧
      t.check none = t.acceptsAbsent ∧
      t.acceptsAbsent = (t.parseSlot none).isOk ∧
      ∀ x, t.check x = (t.parseSlot x).isOk := by
  refine ⟨?_, check_none t, ?_, ?_⟩
  · intro v
    exact (isOk_parse t v).symm
  · rw [isOk_parseSlot, check_none]
  · intro x
    exact (isOk_parseSlot t x).symm

end GraphQuery.Descriptor
