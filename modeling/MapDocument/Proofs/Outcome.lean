import MapDocument.Edit
/-!
# Outcomes — when a computation succeeds

A sequence of steps gives a result when each step does, and fails with the
error of the first that does not. The lemmas here take such sequences apart,
for computations and for edits, so that nothing else has to open them.
-/

namespace MapDocument

section Computation

variable {ε ε' α β : Type}

/-- A computation that goes well gives something. -/
theorem isOk_iff {x : Except ε α} : x.isOk = true ↔ ∃ a, x = .ok a := by
  cases x <;> simp [Except.isOk, Except.toBool]

/-- One that does not fails with something. -/
theorem isOk_eq_false {x : Except ε α} : x.isOk = false ↔ ∃ e, x = .error e := by
  cases x <;> simp [Except.isOk, Except.toBool]

/-- What a computation gives can be looked at without the error. -/
theorem toOption_eq_some {x : Except ε α} {a : α} : x.toOption = some a ↔ x = .ok a := by
  cases x <;> simp [Except.toOption]

/-- A sequence succeeds when both of its steps do. -/
theorem bind_eq_ok {x : Except ε α} {f : α → Except ε β} {b : β} :
    (x >>= f) = .ok b ↔ ∃ a, x = .ok a ∧ f a = .ok b := by
  cases x <;> simp [bind, Except.bind]

/-- A sequence fails in its first step, or in its second after the first. -/
theorem bind_eq_error {x : Except ε α} {f : α → Except ε β} {e : ε} :
    (x >>= f) = .error e ↔ x = .error e ∨ ∃ a, x = .ok a ∧ f a = .error e := by
  cases x <;> simp [bind, Except.bind]

/-- What comes after a check is reached when the check finds nothing. -/
theorem unless_eq_ok {c : Prop} [Decidable c] {e : ε} {f : PUnit → Except ε β} {b : β} :
    (if c then (throw e : Except ε PUnit) >>= f else f ⟨⟩) = .ok b ↔ ¬ c ∧ f ⟨⟩ = .ok b := by
  split
  · rename_i h
    exact ⟨nofun, fun hf => absurd h hf.1⟩
  · rename_i h
    exact ⟨fun hf => ⟨h, hf⟩, fun hf => hf.2⟩

/-- Two sequences that begin alike are the same if they go on alike from what that gives. -/
theorem bind_congr_ok {x : Except ε α} {f g : α → Except ε β} (h : ∀ a, x = .ok a → f a = g a) :
    (x >>= f) = x >>= g := by
  cases x with
  | error e => rfl
  | ok a => exact h a rfl

/-- Two sequences of bytes, or of anything else, are put together when both are made. -/
theorem append_eq_ok {x y : Except ε (List α)} {r : List α} :
    (do let p ← x; return p ++ (← y)) = .ok r ↔ ∃ p q, x = .ok p ∧ y = .ok q ∧ r = p ++ q := by
  cases x <;> cases y <;> simp [bind, Except.bind, pure, Except.pure, eq_comm]

/-- A sequence of computations succeeds when each of them does. -/
theorem exists_mapM_ok {f : α → Except ε β} {xs : List α} (h : ∀ x ∈ xs, ∃ y, f x = .ok y) :
    ∃ ys, xs.mapM f = .ok ys := by
  induction xs with
  | nil => exact ⟨[], rfl⟩
  | cons x xs ih =>
    obtain ⟨y, hy⟩ := h x List.mem_cons_self
    obtain ⟨ys, hys⟩ := ih fun z hz => h z (List.mem_cons_of_mem x hz)
    rw [List.mapM_cons, hy, hys]
    exact ⟨y :: ys, rfl⟩

/-- What can be computed for each item is computed for all of them. -/
theorem mapM_eq_ok {f : α → Except ε β} {g : α → β} {xs : List α} (h : ∀ x ∈ xs, f x = .ok (g x)) :
    xs.mapM f = .ok (xs.map g) := by
  induction xs with
  | nil => rfl
  | cons x xs ih =>
    rw [List.mapM_cons, h x List.mem_cons_self, ih fun y hy => h y (List.mem_cons_of_mem x hy)]
    rfl

/-- What is computed for an item is found in its place. -/
theorem mapM_getElem? {f : α → Except ε β} {xs : List α} {ys : List β} {k : Nat} {x : α}
    (h : xs.mapM f = .ok ys) (hx : xs[k]? = some x) : ∃ y, ys[k]? = some y ∧ f x = .ok y := by
  induction xs generalizing k ys with
  | nil => cases hx
  | cons a rest ih =>
    rw [List.mapM_cons] at h
    obtain ⟨b, hb, h⟩ := bind_eq_ok.1 h
    obtain ⟨bs, hbs, hys⟩ := bind_eq_ok.1 h
    obtain rfl : b :: bs = ys := Except.ok.inj hys
    cases k with
    | zero =>
      cases hx
      exact ⟨b, rfl, hb⟩
    | succ k =>
      obtain ⟨y, hy, hf⟩ := ih hbs hx
      exact ⟨y, hy, hf⟩

/-- A computation succeeds with another error type when it succeeds. -/
theorem mapError_eq_ok {f : ε → ε'} {x : Except ε α} {a : α} :
    x.mapError f = .ok a ↔ x = .ok a := by
  cases x with
  | ok b =>
    constructor <;>
    · intro h
      cases h
      rfl
  | error e => exact ⟨nofun, nofun⟩

/-- And it fails with the error that is made of its own. -/
theorem mapError_eq_error {f : ε → ε'} {x : Except ε α} {e : ε'} :
    x.mapError f = .error e ↔ ∃ e', x = .error e' ∧ f e' = e := by
  cases x with
  | ok a => exact ⟨nofun, nofun⟩
  | error e' =>
    constructor
    · intro h
      cases h
      exact ⟨e', rfl, rfl⟩
    · rintro ⟨_, ⟨⟩, rfl⟩
      rfl

/-- Where an error is seen from has no part in whether there is one. -/
theorem locating_eq_ok {step : PathStep} {x : Except Error α} {a : α} :
    Error.locating step x = .ok a ↔ x = .ok a :=
  mapError_eq_ok

/-- An error seen from one step further out is the same fault. -/
theorem locating_eq_error {step : PathStep} {x : Except Error α} {e : Error} :
    Error.locating step x = .error e ↔ ∃ e', x = .error e' ∧ e'.within step = e :=
  mapError_eq_error

end Computation

section Steps

variable {ε σ α β : Type} {x : EStateM ε σ α} {s s' : σ} {a : α}

/-- A step goes on from where the step before it stopped. -/
theorem bind_of_eq_ok {f : α → EStateM ε σ β} (h : x s = .ok a s') : (x >>= f) s = f a s' := by
  simp only [bind, EStateM.bind, h]

/-- And does not go on where that failed. -/
theorem bind_of_eq_error {f : α → EStateM ε σ β} {e : ε} (h : x s = .error e s') :
    (x >>= f) s = .error e s' := by
  simp only [bind, EStateM.bind, h]

/-- So a sequence of steps succeeds when both do. -/
theorem bind_step_eq_ok {f : α → EStateM ε σ β} {b : β} :
    (x >>= f) s = .ok b s' ↔ ∃ a m, x s = .ok a m ∧ f a m = .ok b s' := by
  cases h : x s <;> simp [bind, EStateM.bind, h, and_assoc]

/-- Something is made of an answer where there is one, and the state is left as it is. -/
theorem map_eq_ok {f : α → β} {b : β} : (f <$> x) s = .ok b s' ↔ ∃ a, x s = .ok a s' ∧ f a = b := by
  cases h : x s <;> simp [Functor.map, EStateM.map, h, and_assoc, and_comm]

end Steps

namespace Edit

variable {σ α : Type} {s v : σ}

/-- Assigning a result gives its value, whatever was there. -/
theorem assign_eq_ok {result : Except Error σ} :
    assign result s = .ok () v ↔ result = .ok v := by
  cases result with
  | ok a =>
    constructor <;>
    · intro h
      cases h
      rfl
  | error e => exact ⟨nofun, nofun⟩

/-- An edit made on a copy succeeds where the edit does. -/
theorem staged_eq_ok {edit : Edit σ α} {a : α} :
    staged edit s = .ok a v ↔ edit s = .ok a v := by
  cases h : edit s <;> simp [staged, h]

/-- So does one that is seen from further out. -/
theorem within_eq_ok {step : PathStep} {edit : Edit σ α} {a : α} :
    within step edit s = .ok a v ↔ edit s = .ok a v := by
  cases h : edit s <;> simp [within, h]

/-- An edit with another answer in place of its own succeeds where the edit does. -/
theorem returning_eq_ok {β : Type} {edit : Edit σ Unit} {b c : β} :
    (do edit; return b : Edit σ β) s = .ok c v ↔ c = b ∧ edit s = .ok () v := by
  rw [bind_step_eq_ok]
  constructor
  · rintro ⟨_, _, hedit, ⟨⟩⟩
    exact ⟨rfl, hedit⟩
  · rintro ⟨rfl, hedit⟩
    exact ⟨(), v, hedit, rfl⟩

/-- Whatever the other answer is. -/
theorem exists_returning_eq_ok {β : Type} {edit : Edit σ Unit} {b : β} :
    (∃ c, (do edit; return b : Edit σ β) s = .ok c v) ↔ edit s = .ok () v := by
  simp only [returning_eq_ok, exists_eq_left]

/-- The value an edit makes is the one that it leaves behind. -/
theorem eval_eq_ok {edit : Edit σ Unit} : eval edit s = .ok v ↔ edit s = .ok () v := by
  cases h : edit s <;> simp [eval, h]

end Edit

end MapDocument
