import MapDocument.Error
/-!
# Edits — changes that can be refused

An edit changes a value in place and answers, or is refused with an error.
A refused edit still says what it leaves behind, so that leaving the value
as it was is a property an edit has or lacks.
-/

namespace MapDocument

/-- A change of a value of type `σ` that answers with an `α` or is refused. -/
abbrev Edit (σ α : Type) := EStateM Error σ α

namespace Edit

variable {σ α : Type}

/-- The value after an edit. -/
def held : EStateM.Result Error σ α → σ
  | .ok _ s => s
  | .error _ s => s

/-- The answer of an edit. -/
def answer : EStateM.Result Error σ α → Except Error α
  | .ok a _ => .ok a
  | .error e _ => .error e

/-- The edit that is always refused and changes nothing. -/
def refuse (fault : Fault) : Edit σ α := fun s => .error (.of fault) s

/-- A check that changes nothing. -/
def check (result : Except Error α) : Edit σ α := fun s =>
  match result with
  | .ok a => .ok a s
  | .error e => .error e s

/-- The value of a computation in place of the old one. -/
def assign (result : Except Error σ) : Edit σ Unit := do set (← check result)

/-- The edit made on a copy, which takes the place of the value if all goes well. -/
def staged (edit : Edit σ α) : Edit σ α := fun s =>
  match edit s with
  | .ok a s' => .ok a s'
  | .error e _ => .error e s

/-- An edit whose error is seen from one step further out. -/
def within (step : PathStep) (edit : Edit σ α) : Edit σ α := fun s =>
  match edit s with
  | .ok a s' => .ok a s'
  | .error e s' => .error (e.within step) s'

/-- The value that an edit makes of a given one. -/
def eval (edit : Edit σ α) (s : σ) : Except Error σ :=
  match edit s with
  | .ok _ s' => .ok s'
  | .error e _ => .error e

end Edit

end MapDocument
