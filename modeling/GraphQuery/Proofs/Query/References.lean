import GraphQuery.Proofs.Query.Pieces
import GraphQuery.Query.Context

/-!
# How records are referred to

What stands at a place is written inside the statements around the place, and nothing else that is
around it matters. So the reference to a record depends on these statements alone, and in fact on
the innermost of them.
-/

namespace GraphQuery

/-! ## References -/

namespace Scopes

variable {around : List ScopeId} {a b : ScopeId}

theorem this_ne_outer : this ≠ outer := by decide

/-- The record of the innermost statement is the current one, every other one the outer one. -/
theorem record_inside (around : List ScopeId) (a : ScopeId) :
    (inside around).record a = if around.head? = some a then this else outer := rfl

/-- Two records are told apart by their references if one of them is the current one. -/
theorem record_eq_iff (different : a ≠ b) :
    (inside around).record a = (inside around).record b ↔
      around.head? ≠ some a ∧ around.head? ≠ some b := by
  rw [record_inside, record_inside]
  by_cases here : around.head? = some a
  · have there : around.head? ≠ some b := by
      rw [here]
      exact fun same => different (Option.some.inj same)
    rw [if_pos here, if_neg there]
    exact iff_of_false this_ne_outer fun neither => neither.1 here
  · rw [if_neg here]
    by_cases there : around.head? = some b
    · rw [if_pos there]
      exact iff_of_false this_ne_outer.symm fun neither => neither.2 there
    · rw [if_neg there]
      exact iff_of_true rfl ⟨here, there⟩

/-- Among the statements around a place, all references differ exactly if there are two of them at
most. -/
theorem unambiguous_iff (distinct : around.Nodup) :
    (∀ a ∈ around, ∀ b ∈ around, a ≠ b → (inside around).record a ≠ (inside around).record b) ↔
      around.length ≤ 2 := by
  refine ⟨?_, ?_⟩
  · intro differ
    match around, distinct with
    | [], _ => exact Nat.zero_le 2
    | [_], _ => exact Nat.le_succ 1
    | [_, _], _ => exact Nat.le_refl 2
    | innermost :: a :: b :: rest, distinct =>
        -- The second and the third from within are both outer ones.
        obtain ⟨notFirst, distinct⟩ := List.nodup_cons.mp distinct
        obtain ⟨notSecond, _⟩ := List.nodup_cons.mp distinct
        have apart : a ≠ b := fun same => notSecond (same ▸ List.mem_cons_self)
        refine absurd ((record_eq_iff apart).mpr ⟨?_, ?_⟩) (differ a (by simp) b (by simp) apart)
        · rintro ⟨⟩
          exact notFirst (by simp)
        · rintro ⟨⟩
          exact notFirst (by simp)
  · intro few a inA b inB apart same
    obtain ⟨notA, notB⟩ := (record_eq_iff apart).mp same
    match around, few with
    | [], _ => cases inA
    | [first], _ => exact notA (by simp [List.mem_singleton.mp inA])
    | [first, second], _ =>
        -- Neither is the first, so both are the second.
        have here : a = second := by
          rcases List.mem_pair.mp inA with rfl | rfl
          · exact absurd rfl notA
          · rfl
        have there : b = second := by
          rcases List.mem_pair.mp inB with rfl | rfl
          · exact absurd rfl notB
          · rfl
        exact apart (here.trans there.symm)

end Scopes

/-- A field of the current record stands without the record. -/
theorem joinPath_this (field : String) : joinPath Scopes.this ("." ++ field) = field := by
  have dotted : ("." ++ field).toList = '.' :: field.toList := by
    rw [String.toList_append]
    rfl
  unfold joinPath
  rw [dotted]
  exact String.ofList_toList

theorem joinPath_outer (segment : String) :
    joinPath Scopes.outer segment = Scopes.outer ++ segment := rfl

/-! ## Places -/

namespace Term

variable (scopes : Scopes)

/-- Applications are written from what their parts are written as. -/
theorem written_apply (op : Operation) (receiver : Term) (arguments : List Term) :
    (apply op receiver arguments).written scopes =
      .application op (receiver.written scopes) (arguments.map (written scopes)) := by
  have operands : (arguments.map (written scopes)).map Written.enclosed =
      arguments.map (operandPieces scopes) := by
    rw [List.map_map]
    rfl
  have plain : (arguments.map (written scopes)).map Written.pieces =
      arguments.map (pieces scopes) := by
    rw [List.map_map]
    rfl
  -- Operators use the arguments as operands, functions as they are.
  rw [written, pieces, piecesEach_eq_map, Written.application, operands, plain]
  unfold application
  rw [zipWith_enclose]
  cases h : op.form <;> simp only [isAtomic, h] <;> rfl

/-- What stands in the hole is written inside the statements around it, and the rest of the term
around that. -/
theorem Context.written_plug (c : Context) (outside : List ScopeId) (t : Term) :
    (c.plug t).written (.inside outside) =
      c.frame outside (t.written (.inside (c.around outside))) := by
  induction c generalizing outside with
  | hole => rfl
  | get inner key ih =>
      rw [plug, around, frame, ← ih]
      rfl
  | receiver op inner arguments ih =>
      rw [plug, around, frame, ← ih, written_apply]
  | argument op first before inner after ih =>
      rw [plug, around, frame, ← ih, written_apply, List.map_append, List.map_cons]
  | entry before key inner after ih =>
      rw [plug, around, frame, ← ih]
      simp only [written, isAtomic, pieces, piecesEntries_eq_map, List.map_append, List.map_cons]
  | item before inner after ih =>
      rw [plug, around, frame, ← ih]
      simp only [written, isAtomic, pieces, piecesEach_eq_map, List.map_append, List.map_cons]
  | clause scope before inner after ih =>
      -- A statement's own scope comes before those around it.
      have parts := Layout.pieces_append ((Scopes.inside outside).enter scope) before
        (.term (inner.plug t) :: after)
      rw [plug, around, frame, ← ih, Scopes.inside_cons]
      exact congrArg (fun ps => Written.mk true (Piece.between "(" ")" ps)) parts
  | operand scope before inner after ih =>
      have parts := Layout.pieces_append ((Scopes.inside outside).enter scope) before
        (.operand (inner.plug t) :: after)
      rw [plug, around, frame, ← ih, Scopes.inside_cons]
      exact congrArg (fun ps => Written.mk true (Piece.between "(" ")" ps)) parts

variable (around : List ScopeId) (a : ScopeId)

theorem written_record :
    (record a).written (.inside around) =
      ⟨true, [.text (if around.head? = some a then Scopes.this else Scopes.outer)]⟩ := rfl

/-- A field of the innermost statement's record is written without the record. -/
theorem written_record_field (name : String) :
    (get (record a) (.field name)).written (.inside around) =
      ⟨true, [.text (if around.head? = some a then Name.ident name
        else Scopes.outer ++ "." ++ Name.ident name)]⟩ := by
  have joined : (get (record a) (.field name)).written (.inside around) =
      ⟨true, [.text (joinPath ((Scopes.inside around).record a) ("." ++ Name.ident name))]⟩ := rfl
  rw [joined, Scopes.record_inside]
  by_cases here : around.head? = some a
  · rw [if_pos here, if_pos here, joinPath_this]
  · rw [if_neg here, if_neg here, joinPath_outer, String.append_assoc]

end Term

end GraphQuery
