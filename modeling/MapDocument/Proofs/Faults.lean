import MapDocument.Proofs.Outcome
/-!
# Faults — what a failure is blamed on

A computation fails for a set of faults if it fails as soon as the set has a
fault in it, and if every fault that it fails with is in the set. The set is
given as a predicate on faults that speaks of the input, so the lemmas here
say of a sequence of steps when it fails and what the fault then says about
the input.
-/

namespace MapDocument

variable {α β : Type}

/-- A computation fails when a fault can be blamed, and then with one that can be. -/
structure FailsFor (x : Except Error α) (blame : Fault → Prop) : Prop where
  blamed : ∀ {e}, x = .error e → blame e.fault
  fails : ∀ {fault}, blame fault → ∃ e, x = .error e

namespace FailsFor

variable {x : Except Error α} {B C : Fault → Prop}

/-- The set of faults may be put in other words. -/
theorem congr (h : FailsFor x B) (hBC : ∀ fault, B fault ↔ C fault) : FailsFor x C where
  blamed he := (hBC _).1 (h.blamed he)
  fails hf := h.fails ((hBC _).2 hf)

/-- A computation that gives something is not blamed on anything. -/
theorem never (h : ∃ a, x = .ok a) : FailsFor x fun _ => False where
  blamed he := by
    obtain ⟨a, ha⟩ := h
    rw [ha] at he
    cases he
  fails hf := hf.elim

/-- A computation fails when, and only when, some fault can be blamed. -/
theorem exists_error_iff (h : FailsFor x B) : (∃ e, x = .error e) ↔ ∃ fault, B fault :=
  ⟨fun ⟨e, he⟩ => ⟨e.fault, h.blamed he⟩, fun ⟨_, hf⟩ => h.fails hf⟩

/-- A check that fails with one fault. -/
theorem check {p : Prop} [Decidable p] {a : α} {fault : Fault} :
    FailsFor (if p then .ok a else .error (Error.of fault)) fun f => ¬ p ∧ f = fault where
  blamed he := by
    split at he
    · cases he
    · cases he
      exact ⟨by assumption, rfl⟩
  fails hf := ⟨_, if_neg hf.1⟩

/-- A computation that is made unless there is a reason not to. -/
theorem guarded {p : Prop} [Decidable p] {fault : Fault} (h : ¬ p → FailsFor x B) :
    FailsFor (if p then .error (Error.of fault) else x) fun f => p ∧ f = fault ∨ ¬ p ∧ B f := by
  by_cases hp : p
  · rw [if_pos hp]
    constructor
    · intro e he
      cases he
      exact .inl ⟨hp, rfl⟩
    · exact fun _ => ⟨_, rfl⟩
  · rw [if_neg hp]
    exact (h hp).congr (by simp [hp])

/-- Where an error is seen from has no part in the fault. -/
theorem locating (h : FailsFor x B) (step : PathStep) : FailsFor (Error.locating step x) B where
  blamed he := by
    obtain ⟨e', he', rfl⟩ := locating_eq_error.1 he
    have hblame : B e'.fault := h.blamed he'
    exact hblame
  fails hf := by
    obtain ⟨e, he⟩ := h.fails hf
    exact ⟨_, locating_eq_error.2 ⟨e, he, rfl⟩⟩

/-- **A sequence fails for the faults of its steps**, those of the second being
looked at where the first gives something. -/
theorem bind {f : α → Except Error β} (h : FailsFor x B)
    (hf : ∀ a, x = .ok a → FailsFor (f a) C) : FailsFor (x >>= f) fun fault => B fault ∨ C fault where
  blamed he := by
    rcases bind_eq_error.1 he with he | ⟨a, ha, he⟩
    · exact .inl (h.blamed he)
    · exact .inr ((hf a ha).blamed he)
  fails hfault := by
    cases hx : x with
    | error e => exact ⟨e, bind_eq_error.2 (.inl rfl)⟩
    | ok a =>
      rcases hfault with hB | hC
      · obtain ⟨e, he⟩ := h.fails hB
        rw [hx] at he
        cases he
      · obtain ⟨e, he⟩ := (hf a hx).fails hC
        exact ⟨e, bind_eq_error.2 (.inr ⟨a, rfl, he⟩)⟩

/-- What is done with a result has no part in a failure. -/
theorem map (h : FailsFor x B) (f : α → β) : FailsFor (f <$> x) B := by
  cases x with
  | ok a => exact ⟨nofun, fun hf => by obtain ⟨e, he⟩ := h.fails hf; cases he⟩
  | error e => exact ⟨fun he => by cases he; exact h.blamed rfl, fun _ => ⟨e, rfl⟩⟩

/-- Two sequences that are put together fail for the faults of both. -/
theorem append {x y : Except Error (List α)} (h : FailsFor x B) (h' : FailsFor y C) :
    FailsFor (do let p ← x; return p ++ (← y)) fun fault => B fault ∨ C fault :=
  h.bind fun p _ => h'.map (p ++ ·)

end FailsFor

end MapDocument
