import GraphQuery.Descriptor.Parse
import GraphQuery.Proofs.Outcome

/-!
# Parsing one part after another

What `Descriptor.parse` does with a container, as one step behind another: the parts are parsed in their
order, a failure ends it, and the container is put together of what has come out.
-/

namespace GraphQuery.Descriptor

theorem traverseFrom_cons {α β ε : Type} (f : Nat → α → Except ε β) (i : Nat) (a : α)
    (rest : List α) :
    traverseFrom f i (a :: rest) = f i a >>= fun b => (traverseFrom f (i + 1) rest).map (b :: ·) := by
  rw [traverseFrom]
  cases f i a with
  | error e => rfl
  | ok b => cases traverseFrom f (i + 1) rest <;> rfl

theorem parseItems_cons (position : Nat) (t : Descriptor) (ts : List Descriptor) (x : Json)
    (xs : List Json) :
    parseItems position (t :: ts) (x :: xs) =
      (t.parse x).mapError (.under (.item position)) >>= fun y =>
        (parseItems (position + 1) ts xs).map (y :: ·) := by
  rw [parseItems]
  cases t.parse x with
  | error e => rfl
  | ok y => cases parseItems (position + 1) ts xs <;> rfl

/-- A field is parsed as a possibly absent value, and then the fields behind it. -/
theorem parseFields_cons (name : String) (t : Descriptor) (rest : List (String × Descriptor))
    (entries : List (String × Json)) :
    parseFields ((name, t) :: rest) entries =
      (t.parseSlot (entries.lookup name)).mapError (.under (.field name)) >>= fun parsed =>
        (parseFields rest entries).map ((parsed.map fun w => (name, w)).toList ++ ·) := by
  rw [parseFields]
  cases entries.lookup name with
  | none =>
      rw [parseSlot]
      by_cases optional : t.acceptsAbsent = true
      · simp only [if_pos optional]
        cases parseFields rest entries <;> rfl
      · simp only [if_neg optional]
        rfl
  | some v =>
      rw [parseSlot]
      dsimp only
      cases t.parse v with
      | error e => rfl
      | ok w => cases parseFields rest entries <;> rfl

theorem parse_object (fields : List (String × Descriptor)) (entries : List (String × Json)) :
    parse (object fields) (.object entries) = (parseFields fields entries).map .object := by
  rw [parse]
  cases parseFields fields entries <;> rfl

theorem parse_list (item : Descriptor) (xs : List Json) :
    parse (list item) (.array xs) =
      (traverseFrom (fun i x => (parse item x).mapError (.under (.item i))) 0 xs).map .array := by
  rw [parse]
  cases traverseFrom (fun i x => (parse item x).mapError (TypeError.under (.item i))) 0 xs <;> rfl

theorem parse_tuple {items : List Descriptor} {xs : List Json} (lengths : items.length = xs.length) :
    parse (tuple items) (.array xs) = (parseItems 0 items xs).map .array := by
  rw [parse, if_pos lengths]
  cases parseItems 0 items xs <;> rfl

theorem parse_tuple_of_ne {items : List Descriptor} {xs : List Json}
    (lengths : items.length ≠ xs.length) :
    parse (tuple items) (.array xs) = .error ((tuple items).mismatch (some (.array xs))) := by
  rw [parse, if_neg lengths]

end GraphQuery.Descriptor
