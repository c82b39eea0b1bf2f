import MapDocument.Catalog.Codes
import MapDocument.TypeCode
/-!
# Type codes — the shapes never clash

A call is refused for the code that stands for no payload and for a code that
is bound to another type; it leaves the registry as it is then.

Every shape confirms its code whenever it is written, in a registry that all
share. However often and in whatever order they do, none is ever refused: all
that the registry ever holds are bindings of shapes to their own codes.
-/

namespace MapDocument

/-- No two shapes have one code. -/
theorem ColliderKind.code_injective {k l : ColliderKind} (h : k.code = l.code) : k = l := by
  cases k <;> cases l <;> first | rfl | exact absurd h (by decide)

namespace TypeRegistry

section Confirm

variable {τ : Type} {r : TypeRegistry τ} {type bound : τ} {code : UInt16}

/-- A code is bound to a pair that the registry holds. -/
theorem mem_of_type?_eq_some (h : r.type? code = some type) : (code, type) ∈ r.bound := by
  obtain ⟨bound⟩ := r
  induction bound with
  | nil => cases h
  | cons b bound ih =>
    obtain ⟨c, t⟩ := b
    simp only [type?, List.lookup_cons] at h
    split at h
    · rename_i hcode
      cases h
      rw [beq_iff_eq.1 hcode]
      exact List.mem_cons_self
    · exact List.mem_cons_of_mem _ (ih h)

variable [DecidableEq τ] [Named τ]

/-- The code that stands for no payload is refused. -/
theorem confirm_reserved :
    confirm type noTypeCode r = .error (.of (.reservedCode noTypeCode (Named.name type))) r := by
  unfold confirm
  rw [if_pos rfl]
  rfl

/-- Any other code is looked up. -/
theorem confirm_of_ne (hcode : code ≠ noTypeCode) :
    confirm type code r =
      match r.type? code with
      | some bound =>
        if bound = type then .ok code r
        else .error (.of (.sharedCode code (Named.name bound) (Named.name type))) r
      | none => .ok code ⟨r.bound ++ [(code, type)]⟩ := by
  unfold confirm
  rw [if_neg hcode]
  dsimp only [bind, EStateM.bind, get, getThe, MonadStateOf.get, EStateM.get, pure, EStateM.pure]
  cases r.type? code with
  | none => rfl
  | some bound =>
    dsimp only
    split <;> rfl

/-- A code that is bound to a type is confirmed for it, and nothing changes. -/
theorem confirm_of_bound (hcode : code ≠ noTypeCode) (h : r.type? code = some type) :
    confirm type code r = .ok code r := by
  rw [confirm_of_ne hcode, h]
  exact if_pos rfl

/-- It is refused for any other type. -/
theorem confirm_of_bound_ne (hcode : code ≠ noTypeCode) (h : r.type? code = some bound)
    (hne : bound ≠ type) :
    confirm type code r =
      .error (.of (.sharedCode code (Named.name bound) (Named.name type))) r := by
  rw [confirm_of_ne hcode, h]
  exact if_neg hne

/-- A code that is not bound is bound now. -/
theorem confirm_of_unbound (hcode : code ≠ noTypeCode) (h : r.type? code = none) :
    confirm type code r = .ok code ⟨r.bound ++ [(code, type)]⟩ := by
  rw [confirm_of_ne hcode, h]

end Confirm

/-! ## Shapes -/

/-- Confirms the code of a shape. -/
def confirmShape (kind : ColliderKind) : Edit TypeRegistry UInt16 :=
  confirm kind.type.path kind.code

/-- All that is bound are shapes to their own codes. -/
def OfShapes (r : TypeRegistry) : Prop :=
  ∀ binding ∈ r.bound, ∃ kind : ColliderKind, binding = (kind.code, kind.type.path)

/-- **A shape is confirmed among shapes**, and leaves a registry of shapes behind. -/
theorem confirmShape_of_ofShapes {r : TypeRegistry} (h : r.OfShapes) (kind : ColliderKind) :
    ∃ r', confirmShape kind r = .ok kind.code r' ∧ r'.OfShapes := by
  have hcode : kind.code ≠ noTypeCode := by cases kind <;> decide
  cases hname : r.type? kind.code with
  | some bound =>
    -- what is bound to the code is a shape, and no other shape has it
    obtain ⟨other, hother⟩ := h _ (mem_of_type?_eq_some hname)
    obtain ⟨hsame, hbound⟩ := Prod.mk.inj hother
    obtain rfl := ColliderKind.code_injective hsame
    rw [hbound] at hname
    exact ⟨r, confirm_of_bound hcode hname, h⟩
  | none =>
    refine ⟨_, confirm_of_unbound hcode hname, ?_⟩
    intro binding hbinding
    rcases List.mem_append.1 hbinding with hbinding | hbinding
    · exact h binding hbinding
    · exact ⟨kind, List.mem_singleton.1 hbinding⟩

/-- **Shapes are never refused**, in whatever order and however often they
confirm their codes. -/
theorem mapM_confirmShape {r : TypeRegistry} (h : r.OfShapes) (kinds : List ColliderKind) :
    ∃ r', kinds.mapM confirmShape r = .ok (kinds.map ColliderKind.code) r' ∧ r'.OfShapes := by
  induction kinds generalizing r with
  | nil => exact ⟨r, rfl, h⟩
  | cons kind kinds ih =>
    obtain ⟨r₁, hkind, h₁⟩ := confirmShape_of_ofShapes h kind
    obtain ⟨r₂, hkinds, h₂⟩ := ih h₁
    refine ⟨r₂, ?_, h₂⟩
    rw [List.mapM_cons]
    dsimp only [bind, EStateM.bind, pure, EStateM.pure]
    rw [hkind]
    dsimp only
    rw [hkinds]
    rfl

/-- The registry that nothing was confirmed in. -/
theorem ofShapes_empty : empty.OfShapes := nofun

end TypeRegistry

end MapDocument
