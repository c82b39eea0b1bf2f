import MapDocument.Catalog.Containers
import MapDocument.Proofs.Node.Atomic
import MapDocument.Proofs.Node.Reload
import Mathlib.Data.List.Nodup
/-!
# Nodes — variants are set for good

A variant that holds a value of a candidate goes on holding one, whatever is
done to it and whatever of that is refused (`Variant.Step.isSome_run`). It is
set by what is a value of the choice or of a candidate, and by no other node:
`Choice.ofErased?_eq_some` says which nodes these are. It is loaded from null
while it holds nothing, and else from the number of a candidate with data for
the default of that candidate (`Variant.load_eq_ok`), so what it held
before has no part in what it is loaded with.

Of all changes only one is made in place, and that is a load of the value
held; so that is where a refused change could show, if it did in the
candidate.
-/

namespace MapDocument

/-- Where at most one item has an answer, that is what is found. -/
theorem findSome?_eq_some_of_unique {α β : Type} {f : α → Option β} {items : List α} {b : β}
    (unique : ∀ {a a' : α} {b b' : β}, f a = some b → f a' = some b' → a = a') :
    items.findSome? f = some b ↔ ∃ a ∈ items, f a = some b := by
  constructor
  · exact List.exists_of_findSome?_eq_some
  · rintro ⟨a, ha, hb⟩
    have hsome : (items.findSome? f).isSome = true :=
      List.findSome?_isSome_iff.2 ⟨a, ha, Option.isSome_of_eq_some hb⟩
    obtain ⟨b', hb'⟩ := Option.isSome_iff_exists.1 hsome
    obtain ⟨a', -, ha'⟩ := List.exists_of_findSome?_eq_some hb'
    obtain rfl := unique hb ha'
    rw [hb', ← ha', hb]

section Coded

variable {κ : Type} {Carrier : κ → Type}

/-- Only nodes of a type have a value of it. -/
theorem Erased.as?_eq_some [DecidableEq κ] {x : Erased Carrier} {t : κ} {y : Carrier t} :
    x.as? t = some y ↔ x = ⟨t, y⟩ := by
  obtain ⟨t', z⟩ := x
  unfold as?
  split
  · rename_i h
    cases h
    constructor
    · intro hy
      cases hy
      rfl
    · intro hx
      cases hx
      rfl
  · rename_i h
    constructor
    · nofun
    · intro hx
      exact absurd (congrArg Erased.type hx) h

/-- And all nodes of that type do. -/
theorem Erased.as?_eq_none [DecidableEq κ] {x : Erased Carrier} {t : κ} :
    x.as? t = none ↔ x.type ≠ t := by
  unfold as?
  split
  · rename_i h
    exact ⟨nofun, fun hne => absurd h hne⟩
  · rename_i h
    exact ⟨fun _ => h, fun _ => rfl⟩

variable [∀ t, Node (Carrier t)] {σ : Type} [Choice σ] [Choice.Coded Carrier σ]

namespace Choice.Coded

/-- The codes of the candidates stand in their order. -/
theorem code_eq_get (i : Fin (Choice.candidates σ).length) :
    code Carrier i = ((codes Carrier σ).map Prod.snd).get
      (i.cast (length_candidates.trans (List.length_map _).symm)) :=
  (List.getElem_map _).symm

/-- No candidate is the choice itself. -/
theorem code_ne_bare (i : Fin (Choice.candidates σ).length) :
    code Carrier i ≠ bare Carrier σ := by
  intro h
  have hmem : code Carrier i ∈ (codes Carrier σ).map Prod.snd := by
    rw [code_eq_get]
    exact List.get_mem _ _
  exact (List.nodup_cons.1 nodup).1 (h ▸ hmem)

/-- The candidates are of different types. -/
theorem code_injective {i k : Fin (Choice.candidates σ).length}
    (h : code Carrier i = code Carrier k) : i = k := by
  rw [code_eq_get, code_eq_get] at h
  have hplace := congrArg Fin.val ((List.nodup_cons.1 nodup).2.get_inj_iff.1 h)
  exact Fin.ext hplace

end Choice.Coded

variable [DecidableEq κ]

open Choice.Coded

/-- A node is a value of a candidate by its type, which is that of no other candidate. -/
theorem Choice.findSome?_ofCandidate {x : Erased Carrier} {s : σ} :
    ((List.finRange _).findSome? fun i => (x.as? (code Carrier i)).map (ofCandidate i)) = some s ↔
      ∃ i y, x = ⟨code Carrier i, y⟩ ∧ s = ofCandidate i y := by
  have hcandidate (i : Fin (Choice.candidates σ).length) (s : σ) :
      (x.as? (code Carrier i)).map (ofCandidate i) = some s ↔
        ∃ y, x = ⟨code Carrier i, y⟩ ∧ s = ofCandidate i y := by
    rw [Option.map_eq_some_iff]
    exact exists_congr fun y => and_congr Erased.as?_eq_some eq_comm
  rw [findSome?_eq_some_of_unique]
  · simp only [hcandidate, List.mem_finRange, true_and]
  · intro i k s t hi hk
    obtain ⟨y, hx, -⟩ := (hcandidate i s).1 hi
    obtain ⟨z, hx', -⟩ := (hcandidate k t).1 hk
    exact code_injective ((congrArg Erased.type hx).symm.trans (congrArg Erased.type hx'))

/-- **A node is a value of a choice by its own type or by that of a candidate**, and by no
other. -/
theorem Choice.ofErased?_eq_some {x : Erased Carrier} {s : σ} :
    ofErased? x = some s ↔
      (∃ y, x = ⟨bare Carrier σ, y⟩ ∧ s = ofBare y) ∨
        ∃ i y, x = ⟨code Carrier i, y⟩ ∧ s = ofCandidate i y := by
  unfold ofErased?
  cases hbare : x.as? (bare Carrier σ) with
  | some y =>
    obtain rfl := Erased.as?_eq_some.1 hbare
    constructor
    · intro h
      cases h
      exact .inl ⟨y, rfl, rfl⟩
    · rintro (⟨z, hx, rfl⟩ | ⟨i, z, hx, -⟩)
      · cases hx
        rfl
      · exact absurd (congrArg Erased.type hx).symm (code_ne_bare i)
  | none =>
    have hother : ¬ ∃ y, x = ⟨bare Carrier σ, y⟩ ∧ s = ofBare y := by
      rintro ⟨y, rfl, -⟩
      rw [Erased.as?_eq_some.2 rfl] at hbare
      cases hbare
    rw [or_iff_right hother]
    exact findSome?_ofCandidate

end Coded

/-! ## Steps -/

namespace Variant

variable {κ : Type} {Carrier : κ → Type} [∀ t, Node (Carrier t)] [DecidableEq κ] {σ : Type}
  [Choice σ] [Choice.Coded Carrier σ] {x : Erased Carrier} {v w : Option σ}

open Choice.Coded

/-- A variant is set by what the choice takes, whatever it held. -/
theorem putErased_eq_ok :
    putErased x v = .ok () w ↔ ∃ s, Choice.ofErased? x = some s ∧ w = some s := by
  unfold putErased
  cases (Choice.ofErased? x : Option σ) with
  | some s =>
    constructor
    · intro h
      cases h
      exact ⟨s, rfl, rfl⟩
    · rintro ⟨_, ⟨⟩, rfl⟩
      rfl
  | none =>
    constructor
    · nofun
    · rintro ⟨_, h, -⟩
      cases h

/-- A node that is not taken leaves the variant as it was. -/
theorem atomic_putErased (x : Erased Carrier) : (putErased x : Edit (Option σ) Unit).Atomic := by
  unfold putErased
  cases (Choice.ofErased? x : Option σ) with
  | some s => nofun
  | none => exact Edit.atomic_refuse _

omit [(t : κ) → Node (Carrier t)] [DecidableEq κ] [Choice.Coded Carrier σ] in
/-- The value held is loaded in place, so it owes this to its candidate. -/
theorem atomic_loadHeld (h : ∀ c ∈ Choice.candidates σ, Node.Atomic c.Value) (j : Json) :
    (loadHeld j : Edit (Option σ) Bool).Atomic := by
  intro v w e he
  cases v with
  | none => cases he
  | some s =>
    simp only [loadHeld] at he
    split at he
    · cases he
    · rename_i hload
      cases he
      rw [Choice.atomic_load h j hload]

namespace Step

variable {step : Step Carrier σ} {j : Json} {b : Bool}

/-- A variant that takes a node then holds it, as a value of the choice. -/
theorem apply_putAny_eq_ok :
    (putAny x).apply v = .ok b w ↔ b = true ∧
      ((∃ y, x = ⟨bare Carrier σ, y⟩ ∧ w = some (ofBare y)) ∨
        ∃ i y, x = ⟨code Carrier i, y⟩ ∧ w = some (ofCandidate i y)) := by
  refine Edit.returning_eq_ok.trans (and_congr_right fun _ => putErased_eq_ok.trans ?_)
  constructor
  · rintro ⟨s, hs, rfl⟩
    rcases Choice.ofErased?_eq_some.1 hs with ⟨y, hx, rfl⟩ | ⟨i, y, hx, rfl⟩
    · exact .inl ⟨y, hx, rfl⟩
    · exact .inr ⟨i, y, hx, rfl⟩
  · rintro (⟨y, hx, rfl⟩ | ⟨i, y, hx, rfl⟩)
    · exact ⟨_, Choice.ofErased?_eq_some.2 (.inl ⟨y, hx, rfl⟩), rfl⟩
    · exact ⟨_, Choice.ofErased?_eq_some.2 (.inr ⟨i, y, hx, rfl⟩), rfl⟩

/-- Whether a node is taken depends on its type alone. -/
theorem exists_apply_putAny :
    (∃ b w, (putAny x).apply v = .ok b w) ↔
      x.type = bare Carrier σ ∨
        ∃ i : Fin (Choice.candidates σ).length, x.type = code Carrier i := by
  constructor
  · rintro ⟨b, w, hw⟩
    rcases (apply_putAny_eq_ok.1 hw).2 with ⟨y, rfl, -⟩ | ⟨i, y, rfl, -⟩
    · exact .inl rfl
    · exact .inr ⟨i, rfl⟩
  · obtain ⟨t, y⟩ := x
    rintro (rfl | ⟨i, rfl⟩)
    · exact ⟨true, _, apply_putAny_eq_ok.2 ⟨rfl, .inl ⟨y, rfl, rfl⟩⟩⟩
    · exact ⟨true, _, apply_putAny_eq_ok.2 ⟨rfl, .inr ⟨i, y, rfl, rfl⟩⟩⟩

/-- A variant that is loaded with more than null then holds that, whatever it held. -/
theorem apply_load_eq_ok :
    (load j : Step Carrier σ).apply v = .ok b w ↔ b = true ∧
      ((j = .null ∧ v = none ∧ w = none) ∨
        ∃ members k i x, j = .object members ∧ members.lookup "type" = some k ∧
          k.toNat? = some i.val ∧ Filled members x ∧ w = some (Choice.join ⟨i, x⟩)) := by
  refine Edit.returning_eq_ok.trans (and_congr_right fun _ => ?_)
  refine load_eq_ok.trans (or_congr_right ⟨?_, ?_⟩)
  · rintro ⟨t, ht, rfl⟩
    obtain ⟨members, k, i, x, hj, hk, hi, hx, rfl⟩ := ofJson_eq_ok.1 ht
    exact ⟨members, k, i, x, hj, hk, hi, hx, rfl⟩
  · rintro ⟨members, k, i, x, hj, hk, hi, hx, rfl⟩
    exact ⟨_, ofJson_eq_ok.2 ⟨members, k, i, x, hj, hk, hi, hx, rfl⟩, rfl⟩

/-- **A step that is refused leaves the variant as it was.** Of the steps only the load of the
value held could do otherwise, where the candidates do. -/
theorem atomic
    (h : (∀ c ∈ Choice.candidates σ, Node.Atomic c.Value) ∨ ∀ j, step ≠ loadHeld j) :
    (step.apply : Edit (Option σ) Bool).Atomic := by
  cases step with
  | put s => nofun
  | putAny x => exact (atomic_putErased x).returning true
  | load j => exact (Node.atomic_variant σ j).returning true
  | reset => nofun
  | loadHeld j => exact atomic_loadHeld (h.resolve_right fun hother => hother j rfl) j
  | resetHeld => nofun

/-- **A variant that is set stays set** with every step, refused or not. -/
theorem isSome_apply (step : Step Carrier σ) (h : v.isSome = true) :
    (Edit.held (step.apply v)).isSome = true := by
  cases step with
  | put s => rfl
  | putAny x =>
    rw [apply, Edit.held_returning]
    refine (atomic_putErased x).held (P := fun v => v.isSome = true) h fun _ w hw => ?_
    obtain ⟨s, -, rfl⟩ := putErased_eq_ok.1 hw
    rfl
  | load j =>
    rw [apply, Edit.held_returning]
    refine (Node.atomic_variant σ j).held (P := fun v => v.isSome = true) h fun _ w hw => ?_
    rcases load_eq_ok.1 hw with ⟨-, rfl, -⟩ | ⟨t, -, rfl⟩
    · cases h
    · rfl
  | reset =>
    obtain ⟨s, rfl⟩ := Option.isSome_iff_exists.1 h
    -- there is a first candidate, as there is one that the value belongs to
    have hfirst : 0 < (Choice.candidates σ).length := Nat.zero_lt_of_lt (Choice.split s).1.isLt
    exact Option.isSome_of_eq_some (Choice.initial?_eq_some.2 ⟨⟨0, hfirst⟩, rfl, rfl⟩)
  | loadHeld j =>
    obtain ⟨s, rfl⟩ := Option.isSome_iff_exists.1 h
    simp only [apply, Variant.loadHeld]
    cases Choice.load j s <;> rfl
  | resetHeld =>
    obtain ⟨s, rfl⟩ := Option.isSome_iff_exists.1 h
    rfl

/-- And so it does with every run of steps. -/
theorem isSome_run (steps : List (Step Carrier σ)) (h : v.isSome = true) :
    (run steps v).isSome = true := by
  induction steps generalizing v with
  | nil => exact h
  | cons step steps ih => exact ih (step.isSome_apply h)

end Step

end Variant

/-! ## Binary form -/

/-- The two bytes of a number, if it fits. -/
theorem Bytes.ofInt16?_eq_ok {n : Nat} {bytes : Bytes} :
    ofInt16? n = .ok bytes ↔ n < 0x8000 ∧ bytes = littleEndian 2 n := by
  unfold ofInt16?
  split
  · rename_i h
    have hword : (Int16.ofInt n).toUInt16.toNat = n := by
      rw [Int16.ofInt_eq_ofNat]
      show n % 65536 = n
      omega
    rw [ofInt16, hword, Except.ok.injEq, eq_comm]
    exact ⟨fun hsame => ⟨by omega, hsame⟩, fun hsame => hsame.2⟩
  · rename_i h
    constructor
    · intro hbytes
      cases hbytes
    · rintro ⟨hfits, -⟩
      omega

/-- **Only what is set has a binary form**: the number of the candidate in two bytes, and the
binary form of the value. -/
theorem Variant.encode_eq_ok {σ : Type} [Choice σ] {v : Option σ} {bytes : Bytes} :
    Variant.encode v = .ok bytes ↔
      ∃ s payload, v = some s ∧ Choice.index s < 0x8000 ∧ Choice.encode s = .ok payload ∧
        bytes = littleEndian 2 (Choice.index s) ++ payload := by
  cases v with
  | none =>
    constructor
    · nofun
    · rintro ⟨_, _, h, -⟩
      cases h
  | some s =>
    refine append_eq_ok.trans ⟨?_, ?_⟩
    · rintro ⟨number, payload, hnumber, hpayload, rfl⟩
      obtain ⟨hfits, rfl⟩ := Bytes.ofInt16?_eq_ok.1 hnumber
      exact ⟨s, payload, rfl, hfits, hpayload, rfl⟩
    · rintro ⟨_, payload, ⟨⟩, hfits, hpayload, rfl⟩
      exact ⟨_, payload, Bytes.ofInt16?_eq_ok.2 ⟨hfits, rfl⟩, hpayload, rfl⟩

/-! ## All of it -/

/-- Where refused loads change nothing in all types, they change nothing in the candidates. -/
theorem Choice.Coded.atomic {κ : Type} {Carrier : κ → Type} [∀ t, Node (Carrier t)] {σ : Type}
    [Choice σ] [Choice.Coded Carrier σ] (h : ∀ t, Node.Atomic (Carrier t)) :
    ∀ c ∈ Choice.candidates σ, Node.Atomic c.Value := by
  intro c hc
  have hcoded : c ∈ (codes Carrier σ).map fun c => candidate c.1 (Carrier c.2) :=
    Eq.subst (motive := fun cs => c ∈ cs) candidates_eq hc
  obtain ⟨⟨name, t⟩, -, rfl⟩ := List.mem_map.1 hcoded
  exact h t

namespace Variant

open Choice.Coded

/-- **A variant is set for good, and only ever holds candidates**, whatever types there are and
whatever choice among them it is a variant of. However it is changed, it stays set once it is
set, with the number of a candidate. A node of any type sets it if it is of the type of the
choice or of a candidate, and no other does. A load succeeds from null where nothing is held,
and else from an object that gives the number of a candidate and, if any, data for its default.
A change that is refused leaves it as it was, if this holds of the candidates, and needs that
of them only for the load of the value held; it does hold of all the types of nodes in the
catalog. Only what is set has a binary form: the number in two bytes, and the value. -/
theorem set_for_good :
    (∀ {κ : Type} [DecidableEq κ] (Carrier : κ → Type) [∀ t, Node (Carrier t)] (σ : Type)
        [Choice σ] [Choice.Coded Carrier σ],
      (∀ (steps : List (Step Carrier σ)) (v : Option σ), v.isSome = true →
        ∃ i < (Choice.candidates σ).length, index? (Step.run steps v) = some i) ∧
      (∀ (x : Erased Carrier) (v : Option σ),
        ((∃ b w, (Step.putAny x).apply v = .ok b w) ↔
          x.type = bare Carrier σ ∨
            ∃ i : Fin (Choice.candidates σ).length, x.type = code Carrier i) ∧
        ∀ b w, (Step.putAny x).apply v = .ok b w ↔ b = true ∧
          ((∃ y, x = ⟨bare Carrier σ, y⟩ ∧ w = some (ofBare y)) ∨
            ∃ i y, x = ⟨code Carrier i, y⟩ ∧ w = some (ofCandidate i y))) ∧
      (∀ (j : Json) (v : Option σ) (b : Bool) (w : Option σ),
        (Step.load j : Step Carrier σ).apply v = .ok b w ↔ b = true ∧
          ((j = .null ∧ v = none ∧ w = none) ∨
            ∃ members k i x, j = .object members ∧ members.lookup "type" = some k ∧
              k.toNat? = some i.val ∧ Filled members x ∧ w = some (Choice.join ⟨i, x⟩))) ∧
      (∀ (step : Step Carrier σ) (v w : Option σ) (e : Error),
        (∀ c ∈ Choice.candidates σ, Node.Atomic c.Value) ∨ (∀ j, step ≠ .loadHeld j) →
          step.apply v = .error e w → w = v) ∧
      ∀ (v : Option σ) (bytes : Bytes), Variant.encode v = .ok bytes ↔
        ∃ s payload, v = some s ∧ Choice.index s < 0x8000 ∧ Choice.encode s = .ok payload ∧
          bytes = littleEndian 2 (Choice.index s) ++ payload) ∧
    ∀ (σ : Type) [Choice σ] [Choice.Coded NodeType.Carrier σ] (step : Step NodeType.Carrier σ)
      (v w : Option σ) (e : Error), step.apply v = .error e w → w = v := by
  refine ⟨?_, ?_⟩
  · intro κ _ Carrier _ σ _ _
    refine ⟨?_, ?_, ?_, ?_, ?_⟩
    · intro steps v hv
      obtain ⟨s, hs⟩ := Option.isSome_iff_exists.1 (Step.isSome_run steps hv)
      exact ⟨Choice.index s, (Choice.split s).1.isLt, by rw [hs]; rfl⟩
    · intro x v
      exact ⟨Step.exists_apply_putAny, fun b w => Step.apply_putAny_eq_ok⟩
    · intro j v b w
      exact Step.apply_load_eq_ok
    · intro step v w e h he
      exact Step.atomic h he
    · intro v bytes
      exact encode_eq_ok
  · intro σ _ _ step v w e he
    exact Step.atomic (.inl (Choice.Coded.atomic NodeType.atomic)) he

/-- Null, the number of no candidate, a node of no candidate, a candidate without its data, and
null once more for the value then held. -/
def contested : List (Step NodeType.Carrier MeshSource) :=
  [.load .null, .load (.object [("type", .ofInt 3)]), .putAny ⟨.int32, (5 : Int32)⟩,
    .load (.object [("type", .ofInt 1)]), .loadHeld .null]

/-- A rectangle is replaced by a height grid in the end, and the steps before and after, all
refused, leave what there is. -/
theorem set_for_good_contested :
    (∃ i < 3, index? (Step.run contested (some (.rect Record.initial))) = some i) ∧
    index? (Step.run contested (some (.rect Record.initial))) = some 1 ∧
    (∃ e w, (Step.load .null : Step NodeType.Carrier MeshSource).apply
        (some (.rect Record.initial)) = .error e w ∧ w = some (.rect Record.initial)) ∧
    ∃ e w, (Step.loadHeld .null : Step NodeType.Carrier MeshSource).apply
        (some (.heightGrid Record.initial)) = .error e w ∧
      w = some (.heightGrid Record.initial) := by
  have hgeneral := set_for_good.1 NodeType.Carrier MeshSource
  refine ⟨hgeneral.1 contested _ rfl, rfl, ⟨_, _, rfl, ?_⟩, ⟨_, _, rfl, ?_⟩⟩
  · exact hgeneral.2.2.2.1 (.load .null) _ _ _ (.inr nofun) rfl
  · exact set_for_good.2 MeshSource (.loadHeld .null) _ _ _ rfl

end Variant

end MapDocument
