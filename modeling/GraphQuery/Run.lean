/-!
# Runs of calls that may fail

A step takes a state and a call to a new state, or it fails. In a run a call that fails is skipped: the
state stays as it was, and the next call meets it.
-/

namespace GraphQuery.Run

variable {σ α ε : Type}

/-- A call that need not be offered. If it is not, it fails without an error of its own. -/
def offered : Option (Except ε α) → Except (Option ε) α
  | none => .error none
  | some r => r.mapError some

variable (step : σ → α → Except ε σ)

/-- What a call leaves: the new state, or the old one if the call fails. -/
def attempt (s : σ) (c : α) : σ :=
  match step s c with
  | .ok s' => s'
  | .error _ => s

/-- What a run leaves. -/
def final (s : σ) (calls : List α) : σ := calls.foldl (attempt step) s

/-- The calls of a run that succeed. -/
def accepted : σ → List α → List α
  | _, [] => []
  | s, c :: rest => match step s c with
    | .ok s' => c :: accepted s' rest
    | .error _ => accepted s rest

/-- Every call of a run with its answer: nothing, or the error that it fails with. -/
def answers : σ → List α → List (α × Except ε Unit)
  | _, [] => []
  | s, c :: rest => (c, (step s c).map fun _ => ()) :: answers (attempt step s c) rest

end GraphQuery.Run
