import Mathlib.Data.List.Forall2
import MapDocument.Proofs.Bytes.Separation
import MapDocument.Proofs.Node.Regular
/-!
# Nodes — binary forms that separate

Every regular type of nodes separates all of its values: leaves by their
length or by the field that writes them, records because their fields do,
lists because their count comes first, and variants because the number of
the candidate does. The lemmas on fields, items and candidates ask for no
more than that what is inside separates, so that the records with a binary
form of their own can use them too.
-/

namespace MapDocument

/-! ## Leaves -/

/-- Finite numbers of a fixed count are told apart. -/
theorem Bytes.separates_ofFinite {α : Type} {toList : α → List Single} {n : Nat}
    (hlen : ∀ a, (toList a).length = n) (hinj : ∀ {a b}, toList a = toList b → a = b) :
    Separates (fun a => ofFinite (toList a)) id := by
  intro a b p q x y ha hb heq
  simp only [ofFinite] at ha hb
  split at ha <;> split at hb <;> cases ha <;> cases hb
  obtain ⟨hlist, hrest⟩ := flatMap_ofSingle_append_inj ((hlen a).trans (hlen b).symm) heq
  exact ⟨hinj hlist, hrest⟩

theorem Vec3.toList_injective {a b : Vec3} (h : a.toList = b.toList) : a = b := by
  simp only [Vec3.toList, List.cons.injEq, and_true] at h
  obtain ⟨hx, hy, hz⟩ := h
  cases a
  cases b
  simp_all

theorem Quaternion.toList_injective {a b : Quaternion} (h : a.toList = b.toList) : a = b := by
  simp only [Quaternion.toList, List.cons.injEq, and_true] at h
  obtain ⟨hx, hy, hz, hw⟩ := h
  cases a
  cases b
  simp_all

/-! ## Records -/

/-- Fields that separate their values separate the tuple of them. -/
theorem Field.separates_encodeAll {fs : List Field}
    (h : ∀ f ∈ fs, Separates (Node.encode : f.Value → Except Error Bytes) id) :
    Separates (Field.encodeAll fs) id := by
  induction fs with
  | nil =>
    intro a b p q x y ha hb heq
    cases ha
    cases hb
    exact ⟨rfl, heq⟩
  | cons f fs ih =>
    have htail := ih fun g hg => h g (List.mem_cons_of_mem f hg)
    have hseq := ((h f List.mem_cons_self).locating (.field f.name)).seq htail
    intro a b p q x y ha hb heq
    exact hseq ha hb heq

/-- A record that is written as its fields separates its values when they do. -/
theorem Record.separates {σ : Type} [Record σ]
    (hencode : ∀ s : σ, Record.encode s = Record.encodeFields s)
    (h : ∀ f ∈ Record.fields σ, Separates (Node.encode : f.Value → Except Error Bytes) id) :
    Separates (Record.encode : σ → Except Error Bytes) id := by
  intro a b p q x y ha hb heq
  rw [hencode] at ha hb
  obtain ⟨hsplit, hrest⟩ := Field.separates_encodeAll h ha hb heq
  have hjoin : join (split a) = join (split b) := congrArg join hsplit
  rw [join_split, join_split] at hjoin
  exact ⟨hjoin, hrest⟩

/-! ## Lists -/

section Items

variable {α β : Type} [Node α] {view : α → β}

/-- Items are told apart when each is told apart from the one in its place. -/
theorem Node.encodeItems_append_inj {xs ys : List α}
    (h : List.Forall₂ (TellsApart (Node.encode : α → Except Error Bytes) view) xs ys)
    {index : Nat} {p q x y : Bytes} (hxs : Node.encodeItems index xs = .ok p)
    (hys : Node.encodeItems index ys = .ok q) (heq : p ++ x = q ++ y) :
    xs.map view = ys.map view ∧ x = y := by
  induction h generalizing index p q with
  | nil =>
    cases hxs
    cases hys
    exact ⟨rfl, heq⟩
  | cons hab _ ih =>
    obtain ⟨hhead, _, _, hxs, hys, heq⟩ := (hab.locating (.index index)).first hxs hys heq
    obtain ⟨htail, hrest⟩ := ih hxs hys heq
    exact ⟨by rw [List.map_cons, List.map_cons, hhead, htail], hrest⟩

/-- **Two lists are told apart item by item**, as the count that comes first
says how many there are: lists of one length must be. -/
theorem Node.tellsApart_list {xs ys : List α} (h : xs.length = ys.length →
      List.Forall₂ (TellsApart (Node.encode : α → Except Error Bytes) view) xs ys) :
    TellsApart (Node.encode : List α → Except Error Bytes) (List.map view) xs ys := by
  intro p q x y hxs hys heq
  obtain ⟨hlen, _, _, hxs, hys, heq⟩ := Bytes.separates_ofLength?.first hxs hys heq
  exact Node.encodeItems_append_inj (h hlen) hxs hys heq

/-- **A list is told apart** when all items are. -/
theorem Node.separates_list (h : Separates (Node.encode : α → Except Error Bytes) view) :
    Separates (Node.encode : List α → Except Error Bytes) (List.map view) := by
  intro xs ys
  refine Node.tellsApart_list fun hlen => ?_
  rw [List.forall₂_iff_get]
  exact ⟨hlen, fun i _ _ => @h _ _⟩

end Items

/-! ## Variants -/

/-- Values of a choice that belong to one candidate are told apart when the
values of the candidate are. -/
theorem Choice.encode_append_inj {σ : Type} [Choice σ]
    (h : ∀ c ∈ candidates σ, Separates (Node.encode : c.Value → Except Error Bytes) id)
    {s t : σ} {p q x y : Bytes} (hindex : index s = index t) (hs : Choice.encode s = .ok p)
    (ht : Choice.encode t = .ok q) (heq : p ++ x = q ++ y) : s = t ∧ x = y := by
  rw [← join_split s, ← join_split t]
  unfold Choice.encode at hs ht
  unfold index at hindex
  generalize split s = s at *
  generalize split t = t at *
  obtain ⟨i, a⟩ := s
  obtain ⟨j, b⟩ := t
  obtain rfl : i = j := Fin.ext hindex
  obtain ⟨hab, hrest⟩ := h _ (List.get_mem _ i) hs ht heq
  exact ⟨congrArg (fun a => join ⟨i, a⟩) hab, hrest⟩

/-- **A variant is told apart by the number of its candidate**, which comes
first, and then as the values of that candidate are. -/
theorem Node.separates_variant {σ : Type} [Choice σ]
    (h : ∀ c ∈ Choice.candidates σ, Separates (Node.encode : c.Value → Except Error Bytes) id) :
    Separates (Node.encode : Option σ → Except Error Bytes) id := by
  intro v w p q x y hv hw heq
  cases v with
  | none => cases hv
  | some s =>
    cases w with
    | none => cases hw
    | some t =>
      have hs : Variant.encode (some s) = .ok p := hv
      have ht : Variant.encode (some t) = .ok q := hw
      obtain ⟨hindex, _, _, hs, ht, heq⟩ := Bytes.separates_ofInt16?.first hs ht heq
      have hnumber : Choice.index s = Choice.index t := Int.ofNat.inj hindex
      obtain ⟨rfl, hrest⟩ := Choice.encode_append_inj h hnumber hs ht heq
      exact ⟨rfl, hrest⟩

/-! ## Regular types -/

/-- **Every regular type of nodes separates its values.** -/
theorem Node.Regular.separates {α : Type} [Node α] (h : Node.Regular α) :
    Separates (Node.encode : α → Except Error Bytes) id := by
  induction h with
  | single => exact Bytes.separates_ofFinite (n := 1) (fun _ => rfl) List.head_eq_of_cons_eq
  | int32 => exact Separates.ofLength Bytes.length_ofInt32 Bytes.ofInt32_injective
  | bool => exact Separates.ofLength Bytes.length_ofBool Bytes.ofBool_injective
  | vec3 => exact Bytes.separates_ofFinite (n := 3) (fun _ => rfl) Vec3.toList_injective
  | quaternion => exact Bytes.separates_ofFinite (n := 4) (fun _ => rfl) Quaternion.toList_injective
  | identifier =>
    intro a b p q x y ha hb heq
    obtain ⟨htext, hrest⟩ := Bytes.separates_ofString? ha hb heq
    obtain ⟨s, hs⟩ := a
    obtain ⟨t, ht⟩ := b
    obtain rfl : s = t := htext
    exact ⟨rfl, hrest⟩
  | floatBuffer =>
    rintro ⟨xs⟩ ⟨ys⟩ p q x y ha hb heq
    obtain ⟨rfl, hrest⟩ := Bytes.separates_ofSingles? ha hb heq
    exact ⟨rfl, hrest⟩
  | record law _ ih => exact Record.separates law.encode_eq ih
  | list _ ih =>
    intro xs ys p q x y hxs hys heq
    obtain ⟨hmap, hrest⟩ := Node.separates_list ih hxs hys heq
    rw [List.map_id, List.map_id] at hmap
    exact ⟨hmap, hrest⟩
  | variant _ _ ih => exact Node.separates_variant ih

end MapDocument
