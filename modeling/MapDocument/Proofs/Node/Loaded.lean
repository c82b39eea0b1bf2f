import MapDocument.Proofs.Node.Reload
/-!
# Nodes — what a loaded node holds

Everything inside a node that was loaded was loaded itself: a field from its
member or, as defaults come back from their text forms, from the text form of
its default.
-/

namespace MapDocument

/-- A value that a load can leave behind. -/
def Node.Loaded {α : Type} [Node α] (v : α) : Prop := ∃ j s, Node.load j s = .ok () v

theorem Node.loaded_of_ofJson {α : Type} [Node α] {j : Json} {v : α} (h : Node.ofJson j = .ok v) :
    Node.Loaded v :=
  ⟨j, Node.initial, Edit.eval_eq_ok.1 h⟩

/-! ## Parts -/

/-- Every field holds a value that was loaded. -/
def Field.LoadedAll : (fs : List Field) → Values fs → Prop
  | [], _ => True
  | _ :: fs, (x, xs) => Node.Loaded x ∧ LoadedAll fs xs

/-- Defaults that have binary forms count as loaded, so all fields are. -/
theorem Field.loadedAll_of_loadAll {members : List (String × Json)} {fs : List Field}
    (hfields : ∀ f ∈ fs, Node.ReloadsEncoded f.Value) {p : Bytes}
    (hinitials : encodeAll fs (initials fs) = .ok p) {s xs : Values fs}
    (h : loadAll members fs s = .ok () xs) : LoadedAll fs xs := by
  induction fs generalizing p with
  | nil => trivial
  | cons f fs ih =>
    obtain ⟨y, ys⟩ := s
    obtain ⟨x, xs⟩ := xs
    obtain ⟨q, r, hinitial, hrest, -⟩ := append_eq_ok.1 hinitials
    obtain ⟨hx, hxs⟩ := loadAll_cons_eq_ok.1 h
    refine ⟨?_, ih (fun g hg => hfields g (List.mem_cons_of_mem f hg)) hrest hxs⟩
    -- a default counts as loaded from its own text form
    cases hmember : members.lookup f.name with
    | some j =>
      rw [hmember] at hx
      exact ⟨j, y, Edit.within_eq_ok.1 hx⟩
    | none =>
      rw [hmember] at hx
      cases hx
      exact ⟨_, y, hfields f List.mem_cons_self (locating_eq_ok.1 hinitial) y⟩

/-- The fields of a loaded record were loaded, if nothing had to be put right. -/
theorem Record.loadedAll {σ : Type} [Record σ] {v : σ} (h : Node.Loaded v)
    (hfields : ∀ f ∈ fields σ, Node.ReloadsEncoded f.Value)
    (hsettle : ∀ v : σ, settle v = v := by intro _; rfl)
    (hinitial : (encodeFields (initial : σ)).isOk = true := by decide) :
    Field.LoadedAll (fields σ) (split v) := by
  obtain ⟨j, s, hv⟩ := h
  obtain ⟨members, xs, hxs, rfl⟩ := load_eq_ok hv
  obtain ⟨p, hp⟩ := isOk_iff.1 hinitial
  rw [encodeFields, initial, split_join] at hp
  rw [hsettle, split_join]
  exact Field.loadedAll_of_loadAll hfields hp hxs

/-- Fields of regular types are loaded with their record. -/
theorem Record.loadedAll_of_regular {σ : Type} [Record σ] {v : σ} (h : Node.Loaded v)
    (regular : Field.Regular (fields σ) := by dsimp only [Record.fields]; infer_instance)
    (hsettle : ∀ v : σ, settle v = v := by intro _; rfl)
    (hinitial : (encodeFields (initial : σ)).isOk = true := by decide) :
    Field.LoadedAll (fields σ) (split v) :=
  loadedAll h (fun f hf => (regular.value f hf).reloads.encoded) hsettle hinitial

/-- The items of a loaded list were loaded. -/
theorem Node.Loaded.item {α : Type} [Node α] {xs : List α} (h : Node.Loaded xs) :
    ∀ x ∈ xs, Node.Loaded x := by
  obtain ⟨j, s, hxs⟩ := h
  obtain ⟨js, -, hitems⟩ := bind_eq_ok.1 (Edit.assign_eq_ok.1 hxs)
  intro x hx
  obtain ⟨i, hi⟩ := Node.ofJson_of_mem_ofItems hitems x hx
  exact Node.loaded_of_ofJson hi

/-- The value of a loaded variant was loaded. -/
theorem Node.Loaded.held {σ : Type} [Choice σ] {t : σ} (h : Node.Loaded (some t))
    (candidates : Candidate.Regular (Choice.candidates σ) := by infer_instance) :
    Node.Loaded (Choice.split t).2 := by
  obtain ⟨j, s, ht⟩ := h
  rcases Variant.load_eq_ok.1 ht with ⟨-, -, ht⟩ | ⟨u, hu, ht⟩
  · cases ht
  · cases ht
    obtain ⟨_, _, i, x, -, -, -, hx, rfl⟩ := Variant.ofJson_eq_ok.1 hu
    rw [Choice.split_join]
    cases hx with
    | absent _ => exact ⟨_, _, (candidates.value _ (List.get_mem _ i)).reloads.initial⟩
    | loaded _ hload => exact ⟨_, _, hload⟩

end MapDocument
