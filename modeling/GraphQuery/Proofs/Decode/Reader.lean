import GraphQuery.Decode.Reader

/-!
# Reading what was written

A record is read field by field when its keys come one after the other, and a list item by item.
-/

namespace GraphQuery.Decode

section Struct

variable {σ : Type} {fields : List (FieldReader σ)} {origin : Origin} {state state' : σ}
  {seen : List String} {key : String}

/-- A field that is due is read into the record. -/
theorem structEntries_cons (field : FieldReader σ) {close : ObjectEnd} {value : Source}
    (rest : List (SourceEntry Source))
    (due : fields.find? (fun field => field.name == key) = some field)
    (fresh : seen.contains field.name = false) (read : field.read state origin value = .ok state') :
    structEntries fields origin close state seen (⟨key, value, none⟩ :: rest) =
      structEntries fields origin close state' (field.name :: seen) rest := by
  have step : readField origin state field value = .ok state' := by
    rw [readField, read]
    rfl
  rw [structEntries, due]
  dsimp only
  rw [fresh, step]
  rfl

theorem structEntries_closed :
    structEntries fields origin .closed state seen [] = .ok state := by
  rw [structEntries]
  · rfl
  · intro key fault same
    cases same

end Struct

section List

variable {α β : Type} {origin : Origin} {read : Decoder β} {write : α → Json} {result : α → β}

theorem itemsFrom_ofItems {items : List α}
    (each : ∀ a ∈ items, read origin (.ofJson (write a)) = .ok (result a)) (position : Nat) :
    itemsFrom (read origin) position (Source.ofItems (items.map write)) = .ok (items.map result) := by
  induction items generalizing position with
  | nil => rfl
  | cons a rest ih =>
      obtain ⟨first, others⟩ := List.forall_mem_cons.mp each
      rw [List.map_cons, Source.ofItems, itemsFrom, first]
      dsimp only
      rw [ih others]
      rfl

/-- A list is read as its items are. -/
theorem list_ofJson {items : List α}
    (each : ∀ a ∈ items, read origin (.ofJson (write a)) = .ok (result a)) :
    list read origin (.ofJson (.array (items.map write))) = .ok (items.map result) := by
  rw [Source.ofJson, list, itemsFrom_ofItems each]
  rfl

end List

end GraphQuery.Decode
