import GraphQuery.Descriptor.Locate
import GraphQuery.Proofs.Descriptor.Parsing

/-!
# Parsing on a path reports where it failed

Parsing on a path in text does what `Descriptor.parse` does: on success the path is what it was before,
and a failure holds the path on which parsing started, followed by the steps to what failed. The text
that is left then is the text of the failure. Each way of putting parsers together keeps this, and an
alternative that fails leaves no trace, because it had its own copy.
-/

namespace GraphQuery

/-- The text behind the text of the first step. -/
theorem TypeError.located_under (front : String) (step : ValueStep) (e : TypeError) :
    (e.under step).located front = e.located (front ++ step.render) := by
  simp [located, under, String.append_assoc]

namespace Locating

variable {α β : Type}

/-- What parsing on a path comes to, and the path that it leaves. -/
def outcome (path : String) : Except TypeError α → Except LocatedError α × String
  | .ok a => (.ok a, path)
  | .error e => (.error (e.located path), (e.located path).path)

/-- On every path parsing comes to the same result, and reports the same error behind that path. -/
def Follows (r : Locating α) (plain : Except TypeError α) : Prop :=
  ∀ path, r.run.run path = outcome path plain

/-- What was pushed behind a text is cut off again. -/
@[simp] theorem truncate_append (path more : String) :
    truncate path.length (path ++ more) = path := by
  rw [truncate, String.toList_append, ← String.length_toList, List.take_left, String.ofList_toList]

/-! ## Running one step after another -/

section Run

variable {r : Locating α} {f : α → Locating β} {path path' : String}

theorem run_bind_of_ok {a : α} (done : r.run.run path = (.ok a, path')) :
    (r >>= f).run.run path = (f a).run.run path' := by
  rw [ExceptT.run_bind, StateT.run_bind, done]
  rfl

theorem run_bind_of_error {e : LocatedError} (failed : r.run.run path = (.error e, path')) :
    (r >>= f).run.run path = (.error e, path') := by
  rw [ExceptT.run_bind, StateT.run_bind, failed]
  rfl

/-- One step inside, parsing runs behind the text of the step; the path is cut at its old length. -/
theorem run_within (step : ValueStep) (r : Locating α) (path : String) :
    (within step r).run.run path =
      (r >>= fun out => do modify (truncate path.length); return out).run.run
        (path ++ step.render) := rfl

end Run

/-! ## The same result, and the same error behind the path -/

namespace Follows

variable {r : Locating α} {p : Except TypeError α}

theorem pure (a : α) : Follows (pure a) (.ok a) := fun _ => rfl

/-- No step has been taken from the value at hand. -/
theorem fail (t : Descriptor) (value : Option Json) :
    Follows (Locating.fail t value : Locating α) (.error (t.mismatch value)) := by
  intro path
  have here : (t.mismatch value).located path = ⟨t.tag, t.expected, value, path⟩ := by
    simp [TypeError.located, Descriptor.mismatch]
  rw [outcome, here]
  rfl

theorem bind {f : α → Locating β} {g : α → Except TypeError β} (first : Follows r p)
    (second : ∀ a, Follows (f a) (g a)) : Follows (r >>= f) (p >>= g) := by
  intro path
  cases p with
  | error e => exact run_bind_of_error (first path)
  | ok a => exact (run_bind_of_ok (first path)).trans (second a path)

/-- What follows a step that succeeds. -/
theorem after {f : α → Locating β} {a : α} {q : Except TypeError β} (first : Follows r (.ok a))
    (second : Follows (f a) q) : Follows (r >>= f) q := fun path =>
  (run_bind_of_ok (first path)).trans (second path)

theorem map (f : α → β) (follows : Follows r p) :
    Follows (do return f (← r)) (p.map f) := by
  have mapped : p.map f = p >>= fun a => .ok (f a) := by cases p <;> rfl
  rw [mapped]
  exact follows.bind fun a => pure (f a)

/-- The step is in front of what is parsed inside. A failure keeps it, and success takes it off. -/
theorem within (step : ValueStep) (inside : Follows r p) :
    Follows (Locating.within step r) (p.mapError (TypeError.under step)) := by
  intro path
  have inner := inside (path ++ step.render)
  rw [run_within]
  cases p with
  | error e =>
      show _ = outcome path (.error (e.under step))
      rw [run_bind_of_error inner, outcome, TypeError.located_under]
  | ok a =>
      rw [run_bind_of_ok inner]
      show (Except.ok a, truncate path.length (path ++ step.render)) = _
      rw [truncate_append]
      rfl

/-- Whatever an alternative has done to its copy, the path is what it was. -/
theorem attempt (alternative : Follows r p) : Follows (Locating.attempt r) (.ok p.toOption) := by
  intro path
  show (Except.ok (r.run.run path).1.toOption, path) = _
  rw [alternative path]
  cases p <;> rfl

theorem slot {t : Descriptor} {present : Json → Locating Json}
    (follows : ∀ v, Follows (present v) (t.parse v)) (x : Option Json) :
    Follows (Locating.slot t present x) (t.parseSlot x) := by
  cases x with
  | none =>
      rw [Locating.slot, Descriptor.parseSlot]
      split
      · exact pure none
      · exact fail t none
  | some v => exact (follows v).map some

/-- Items are parsed one after the other, each behind the text of its position. -/
theorem each {f : α → Locating β} {g : α → Except TypeError β}
    (follows : ∀ a, Follows (f a) (g a)) (position : Nat) (as : List α) :
    Follows (Locating.each f position as)
      (Descriptor.traverseFrom (fun i a => (g a).mapError (.under (.item i))) position as) := by
  induction as generalizing position with
  | nil => exact pure []
  | cons a rest ih =>
      rw [Descriptor.traverseFrom_cons]
      exact ((follows a).within (.item position)).bind fun b => (ih (position + 1)).map (b :: ·)

/-- What comes of parsing that starts on the empty path. -/
theorem result (follows : Follows r p) :
    (r.run.run "").1 = p.mapError (TypeError.located "") := by
  rw [follows ""]
  cases p <;> rfl

end Follows

end Locating

/-! ## Parsing -/

namespace Descriptor

open Locating

mutual

/-- Parsing on a path follows parsing. The induction is on the shape: a container goes one step inside
for each of its parts, and an alternative is tried on a copy. -/
theorem follows_parse (t : Descriptor) (v : Json) : Follows (t.parseOn v) (t.parse v) := by
  cases t with
  | option inner => exact follows_parse inner v
  | union alts =>
      rw [parseOn, parse]
      refine (follows_parseFirst alts v).after ?_
      cases parseFirst alts v with
      | some w => exact .pure w
      | none => exact .fail _ _
  | object fields =>
      cases v with
      | object entries =>
          rw [parse_object]
          exact (follows_parseFields fields entries).map Json.object
      | _ => exact .fail _ _
  | list item =>
      cases v with
      | array xs =>
          rw [parse_list]
          exact (Follows.each (follows_parse item) 0 xs).map Json.array
      | _ => exact .fail _ _
  | tuple items =>
      cases v with
      | array xs =>
          by_cases lengths : items.length = xs.length
          · rw [parse_tuple lengths, parseOn, if_pos lengths]
            exact (follows_parseItems 0 items xs).map Json.array
          · rw [parse_tuple_of_ne lengths, parseOn, if_neg lengths]
            exact .fail _ _
      | _ => exact .fail _ _
  | _ =>
      simp only [parse, parseOn]
      split
      · exact .pure v
      · exact .fail _ _
termination_by structural t

theorem follows_parseFirst (alts : List Descriptor) (v : Json) :
    Follows (parseAnyOn alts v) (.ok (parseFirst alts v)) := by
  cases alts with
  | nil => exact .pure none
  | cons t rest =>
      rw [parseAnyOn, parseFirst]
      refine (follows_parse t v).attempt.after ?_
      cases t.parse v with
      | ok w => exact .pure (some w)
      | error e => exact follows_parseFirst rest v
termination_by structural alts

theorem follows_parseFields (fields : List (String × Descriptor)) (entries : List (String × Json)) :
    Follows (parseFieldsOn fields entries) (parseFields fields entries) := by
  match fields with
  | [] => exact .pure []
  | (name, t) :: rest =>
      rw [parseFields_cons, parseFieldsOn]
      refine ((Follows.slot (follows_parse t) _).within _).bind fun parsed => ?_
      exact (follows_parseFields rest entries).map _
termination_by structural fields

theorem follows_parseItems (position : Nat) (items : List Descriptor) (xs : List Json) :
    Follows (parseItemsOn position items xs) (parseItems position items xs) := by
  match items, xs with
  | [], _ => exact .pure []
  | _ :: _, [] => exact .pure []
  | t :: rest, x :: xs =>
      rw [parseItems_cons]
      refine ((follows_parse t x).within (.item position)).bind fun y => ?_
      exact (follows_parseItems (position + 1) rest xs).map (y :: ·)
termination_by structural items

end

/-- On the empty path the errors are those of parsing, with their path in text. -/
theorem parseLocated_eq (t : Descriptor) (v : Json) :
    t.parseLocated v = (t.parse v).mapError (TypeError.located "") :=
  (follows_parse t v).result

end Descriptor

end GraphQuery
