import MapDocument.Catalog.Basic
import MapDocument.Proofs.Node.Regular
import MapDocument.Proofs.Scene.Regular
/-!
# Nodes — refused loads change nothing

Whatever was loaded before a load is refused, nothing of it stays: a leaf, a
list and a variant put their new value in place only once it is whole, a
record loads its fields on a copy, and a choice by itself leaves the load to
its candidate. Two edits that change nothing where they are refused do not
make a third one when they follow each other, so the copy is what a record
owes this to, and not its fields.
-/

namespace MapDocument

/-! ## Edits -/

namespace Edit

variable {σ α β : Type} {edit : Edit σ α} {s : σ}

/-- An edit that changes nothing where it is refused. -/
def Atomic (edit : Edit σ α) : Prop := ∀ ⦃s s' : σ⦄ ⦃e : Error⦄, edit s = .error e s' → s' = s

theorem atomic_refuse (fault : Fault) : (refuse fault : Edit σ α).Atomic := by
  intro s s' e h
  cases h
  rfl

/-- A value is put in place only if there is one. -/
theorem atomic_assign (result : Except Error σ) : (assign result).Atomic := by
  intro s s' e h
  cases result with
  | ok v => cases h
  | error e' =>
    cases h
    rfl

/-- Another answer in place of that of an edit does not change what is left behind. -/
theorem held_returning (edit : Edit σ α) (b : β) (s : σ) :
    held ((do let _ ← edit; return b : Edit σ β) s) = held (edit s) := by
  simp only [bind, EStateM.bind]
  cases edit s <;> rfl

/-- So where it is refused it changes nothing, if the edit does not. -/
theorem Atomic.returning (h : edit.Atomic) (b : β) :
    (do let _ ← edit; return b : Edit σ β).Atomic := by
  intro s s' e he
  simp only [bind, EStateM.bind] at he
  split at he
  · cases he
  · rename_i hedit
    cases he
    exact h hedit

/-- What is so before such an edit is so after it, if it is so where the edit is made. -/
theorem Atomic.held (h : edit.Atomic) {P : σ → Prop} (hs : P s)
    (hmade : ∀ a s', edit s = .ok a s' → P s') : P (held (edit s)) := by
  cases hedit : edit s with
  | ok a s' => exact hmade a s' hedit
  | error e s' =>
    obtain rfl := h hedit
    exact hs

/-- What was done to the copy does not matter where the edit is refused. -/
theorem staged_eq_error {s' : σ} {e : Error} :
    staged edit s = .error e s' ↔ s' = s ∧ ∃ half, edit s = .error e half := by
  unfold staged
  cases h : edit s with
  | ok a v => exact ⟨nofun, fun ⟨_, _, hhalf⟩ => nomatch hhalf⟩
  | error e' half =>
    constructor
    · intro he
      cases he
      exact ⟨rfl, half, rfl⟩
    · rintro ⟨rfl, _, hhalf⟩
      cases hhalf
      rfl

end Edit

/-! ## Nodes -/

/-- The types of nodes whose refused loads change nothing. -/
def Node.Atomic (α : Type) [Node α] : Prop := ∀ j, (Node.load j : Edit α Unit).Atomic

/-- A record is not an object, or one of its fields is refused after others may have
been loaded; of those nothing stays. -/
theorem Record.load_eq_error {σ : Type} [Record σ] {j : Json} {s s' : σ} {e : Error} :
    Record.load j s = .error e s' ↔
      s' = s ∧ (j.asObject (name σ) = .error e ∨
        ∃ members half, j.asObject (name σ) = .ok members ∧
          loadFields members s = .error e half) := by
  unfold load
  cases j.asObject (name σ) with
  | error e' =>
    constructor
    · intro h
      cases h
      exact ⟨rfl, .inl rfl⟩
    · rintro ⟨rfl, h | ⟨members, half, h, -⟩⟩
      · cases h
        rfl
      · cases h
  | ok members =>
    refine Edit.staged_eq_error.trans (and_congr_right fun _ => ?_)
    constructor
    · rintro ⟨half, hhalf⟩
      exact .inr ⟨members, half, rfl, hhalf⟩
    · rintro (h | ⟨_, half, h, hhalf⟩)
      · cases h
      · cases h
        exact ⟨half, hhalf⟩

/-- **A record stays what it was where one of its fields is refused**, whatever its
fields are. -/
theorem Record.atomic (σ : Type) [Record σ] : Node.Atomic σ :=
  fun _ _ _ _ h => (load_eq_error.1 h).1

/-- A list stays what it was where one of its items is refused, whatever its items are. -/
theorem Node.atomic_list (α : Type) [Node α] : Node.Atomic (List α) := fun _ => Edit.atomic_assign _

/-- A variant stays what it was, set or not, whatever its candidates are. -/
theorem Node.atomic_variant (σ : Type) [Choice σ] : Node.Atomic (Option σ) := by
  intro j s s' e h
  have hload : Variant.load j s = .error e s' := h
  unfold Variant.load at hload
  split at hload
  · -- null is refused by a variant that is set
    cases s with
    | none => cases hload
    | some t => exact Edit.atomic_refuse _ hload
  · exact Edit.atomic_assign _ hload

/-- A value of a choice is loaded in place, so it owes this to its candidate. -/
theorem Choice.atomic_load {σ : Type} [Choice σ]
    (h : ∀ c ∈ Choice.candidates σ, Node.Atomic c.Value) (j : Json) :
    (Choice.load j : Edit σ Unit).Atomic := by
  intro s s' e he
  simp only [Choice.load] at he
  split at he
  · cases he
  · rename_i e' x hx
    cases he
    rw [h _ (List.get_mem _ _) j hx]
    exact Choice.join_split s

/-- **Refused loads change nothing in the regular types.** -/
theorem Node.Regular.atomic {α : Type} [Node α] (h : Node.Regular α) : Node.Atomic α := by
  cases h with
  | single => exact fun _ => Edit.atomic_assign _
  | int32 => exact fun _ => Edit.atomic_assign _
  | bool => exact fun _ => Edit.atomic_assign _
  | vec3 => exact fun _ => Edit.atomic_assign _
  | quaternion => exact fun _ => Edit.atomic_assign _
  | identifier => exact fun _ => Edit.atomic_assign _
  | floatBuffer => exact fun _ => Edit.atomic_assign _
  | record law fields => exact Record.atomic α
  | list item => exact Node.atomic_list _
  | variant few candidates => exact Node.atomic_variant _

namespace NodeType

/-- The choices by themselves have candidates of regular types. -/
theorem atomic_bare (c : ChoiceType) : @Node.Atomic c.Carrier (node (.bare c)) := by
  have hload (candidates : Candidate.Regular (Choice.candidates c.Carrier)) (j : Json) :
      (Choice.load j : Edit c.Carrier Unit).Atomic :=
    Choice.atomic_load (fun d hd => (candidates.value d hd).atomic) j
  cases c with
  | scalar => exact hload (inferInstanceAs (Candidate.Regular (Choice.candidates Scalar)))
  | checked => exact hload (inferInstanceAs (Candidate.Regular (Choice.candidates Checked)))
  | meshSource => exact hload (inferInstanceAs (Candidate.Regular (Choice.candidates MeshSource)))

/-- **Refused loads change nothing, in whatever type of nodes.** -/
theorem atomic (t : NodeType) : Node.Atomic t.Carrier := by
  cases t with
  | aabb => exact Record.atomic Aabb
  | lamp => exact Record.atomic Lamp
  | tagged => exact Record.atomic Tagged
  | embeddedModel => exact Record.atomic EmbeddedModel
  | metadata => exact Record.atomic Metadata
  | mapChunk => exact Record.atomic MapChunk
  | bare c => exact atomic_bare c
  | variant c => exact Node.atomic_variant c.Carrier
  | list item => exact Node.atomic_list item.Carrier
  | _ => exact Node.Regular.atomic inferInstance

/-- **Loads are atomic at every depth.** A load that is refused leaves the node exactly as it
was, be it a leaf, a record, a list, a variant that is set or not, or a choice by itself, and
whatever had been loaded inside it before. A record is refused where the fields, loaded one
after the other, stop half way, and nothing is kept of that half. Neither records nor lists nor
variants need this of what is inside them; a choice by itself has it from its candidates. -/
theorem load_refused :
    (∀ (t : NodeType) (j : Json) (v w : t.Carrier) (e : Error),
      Node.load j v = .error e w → w = v) ∧
    (∀ (σ : Type) [Record σ] (j : Json) (v w : σ) (e : Error),
      Node.load j v = .error e w ↔
        w = v ∧ (j.asObject (Record.name σ) = .error e ∨
          ∃ members half, j.asObject (Record.name σ) = .ok members ∧
            Record.loadFields members v = .error e half)) ∧
    (∀ (α : Type) [Node α] (j : Json) (v w : List α) (e : Error),
      Node.load j v = .error e w → w = v) ∧
    (∀ (σ : Type) [Choice σ] (j : Json) (v w : Option σ) (e : Error),
      Node.load j v = .error e w → w = v) ∧
    ∀ (σ : Type) [Choice σ], (∀ c ∈ Choice.candidates σ, Node.Atomic c.Value) →
      ∀ (j : Json) (v w : σ) (e : Error), Choice.load j v = .error e w → w = v := by
  refine ⟨?_, ?_, ?_, ?_, ?_⟩
  · intro t j v w e h
    exact atomic t j h
  · intro σ record j v w e
    exact Record.load_eq_error
  · intro α node j v w e h
    exact Node.atomic_list α j h
  · intro σ choice j v w e h
    exact Node.atomic_variant σ j h
  · intro σ choice hcandidates j v w e h
    exact Choice.atomic_load hcandidates j h

/-- A document whose first light can be loaded and whose second cannot. -/
def secondLightRefused : List (String × Json) :=
  [("metadata", .object [("bin_version", .ofInt 7)]), ("point_lights", .array [.object [], .null])]

/-- A map is refused after its version was loaded, and keeps its own; a rectangle is refused
at its last corner, after the others were reset, and keeps them all. -/
theorem load_refused_late :
    (∃ half, Record.loadFields secondLightRefused (Record.initial : MapChunk) =
        .error ⟨.notObject "LightPoint" .null, [.field "point_lights", .index 1]⟩ half ∧
      half.metadata.version = 7) ∧
    (∃ e w, Node.load (.object secondLightRefused) (Record.initial : MapChunk) = .error e w ∧
      w = Record.initial) ∧
    ∃ e w, Choice.load (.object [("p4", .null)]) (MeshSource.rect ⟨.zero, .zero, .zero, .zero, true⟩) =
        .error e w ∧ w = .rect ⟨.zero, .zero, .zero, .zero, true⟩ := by
  refine ⟨⟨_, rfl, rfl⟩, ⟨_, _, rfl, ?_⟩, ⟨_, _, rfl, ?_⟩⟩
  · exact load_refused.1 .mapChunk (.object secondLightRefused) Record.initial _ _ rfl
  · have hcandidates : ∀ c ∈ Choice.candidates MeshSource, Node.Atomic c.Value :=
      fun c hc => (Candidate.Regular.value c hc).atomic
    exact load_refused.2.2.2.2 MeshSource hcandidates (.object [("p4", .null)]) _ _ _ rfl

end NodeType

end MapDocument
