import MapDocument.Bytes.Fields
import MapDocument.Proofs.Bytes.LittleEndian
import MapDocument.Proofs.Outcome
import MapDocument.Proofs.Text.Utf8
/-!
# Bytes — telling where a field ends

Nothing in the binary form says where a field ends but the field itself. A
field separates its values if its bytes, whatever follows them, are bytes of
no other value and of no other length. Fields that do can be written one
after the other, and the sequence separates its values again.

What is told apart is a view of the value: all of it for almost every field,
and less where the binary form leaves something out.
-/

namespace MapDocument

variable {α β γ δ : Type}

/-- The bytes of two values, whatever follows them, show whether the values are the same up to a
view, and where they end. -/
def TellsApart (encode : α → Except Error Bytes) (view : α → β) (a b : α) : Prop :=
  ∀ ⦃p q x y : Bytes⦄, encode a = .ok p → encode b = .ok q → p ++ x = q ++ y →
    view a = view b ∧ x = y

/-- The bytes of a value, whatever follows them, show the value up to a view,
and where they end. -/
def Separates (encode : α → Except Error Bytes) (view : α → β) : Prop :=
  ∀ ⦃a b : α⦄, TellsApart encode view a b

section TellsApart

variable {encode : α → Except Error Bytes} {view : α → β} {a b : α}

/-- Where an error is seen from has no part in what is written. -/
theorem TellsApart.locating (h : TellsApart encode view a b) (step : PathStep) :
    TellsApart (fun a => Error.locating step (encode a)) view a b := by
  intro p q x y ha hb heq
  exact h (locating_eq_ok.1 ha) (locating_eq_ok.1 hb) heq

/-- What stands first is told apart, and what stands behind it is compared from there. -/
theorem TellsApart.first (h : TellsApart encode view a b) {c d : Except Error Bytes}
    {p q x y : Bytes}
    (hp : (do let bytes ← encode a; return bytes ++ (← c)) = .ok p)
    (hq : (do let bytes ← encode b; return bytes ++ (← d)) = .ok q) (heq : p ++ x = q ++ y) :
    view a = view b ∧ ∃ r s, c = .ok r ∧ d = .ok s ∧ r ++ x = s ++ y := by
  obtain ⟨p, r, ha, hc, rfl⟩ := append_eq_ok.1 hp
  obtain ⟨q, s, hb, hd, rfl⟩ := append_eq_ok.1 hq
  rw [List.append_assoc, List.append_assoc] at heq
  obtain ⟨hview, hrest⟩ := h ha hb heq
  exact ⟨hview, r, s, hc, hd, hrest⟩

end TellsApart

namespace Separates

variable {encode : α → Except Error Bytes} {view : α → β}

/-- Values stay told apart wherever an error is seen from. -/
theorem locating (h : Separates encode view) (step : PathStep) :
    Separates (fun a => Error.locating step (encode a)) view :=
  fun a b => (@h a b).locating step

/-- What stands first is told apart from any other. -/
theorem first (h : Separates encode view) {a b : α} {c d : Except Error Bytes} {p q x y : Bytes}
    (hp : (do let bytes ← encode a; return bytes ++ (← c)) = .ok p)
    (hq : (do let bytes ← encode b; return bytes ++ (← d)) = .ok q) (heq : p ++ x = q ++ y) :
    view a = view b ∧ ∃ r s, c = .ok r ∧ d = .ok s ∧ r ++ x = s ++ y :=
  TellsApart.first (@h a b) hp hq heq

/-- **A field of fixed length separates its values** when no two of them have
the same bytes. -/
theorem ofLength {f : α → Bytes} {n : Nat} (hlen : ∀ a, (f a).length = n)
    (hinj : ∀ {a b}, f a = f b → a = b) : Separates (fun a => .ok (f a)) id := by
  intro a b p q x y ha hb heq
  cases ha
  cases hb
  obtain ⟨hf, hrest⟩ := List.append_inj heq ((hlen a).trans (hlen b).symm)
  exact ⟨hinj hf, hrest⟩

/-- **Two fields, one after the other, are told apart as each of them is.** -/
theorem seq {encode' : γ → Except Error Bytes} {view' : γ → δ} (h : Separates encode view)
    (h' : Separates encode' view') :
    Separates (fun s : α × γ => do
      let bytes ← encode s.1
      return bytes ++ (← encode' s.2)) (Prod.map view view') := by
  rintro ⟨a, c⟩ ⟨b, d⟩ p q x y ha hb heq
  obtain ⟨hfirst, _, _, hc, hd, heq⟩ := h.first ha hb heq
  obtain ⟨hsecond, hrest⟩ := h' hc hd heq
  exact ⟨Prod.ext hfirst hsecond, hrest⟩

end Separates

/-! ## Fields -/

namespace Bytes

/-- Integers that fit in two bytes are told apart. -/
theorem separates_ofInt16? : Separates ofInt16? id := by
  intro m n p q x y hm hn heq
  unfold ofInt16? at hm hn
  split at hm <;> split at hn <;> cases hm <;> cases hn
  obtain ⟨hwords, hrest⟩ := List.append_inj heq (by simp)
  have htoInt := congrArg Int16.toInt (ofInt16_injective hwords)
  rw [Int16.toInt_ofInt_of_le (by omega) (by omega),
    Int16.toInt_ofInt_of_le (by omega) (by omega)] at htoInt
  exact ⟨htoInt, hrest⟩

/-- Lengths and counts are told apart. -/
theorem separates_ofLength? : Separates ofLength? id := by
  intro m n p q x y hm hn heq
  unfold ofLength? at hm hn
  split at hm <;> split at hn <;> cases hm <;> cases hn
  obtain ⟨hwords, hrest⟩ := List.append_inj heq (by simp)
  have htoInt := congrArg Int32.toInt (ofInt32_injective hwords)
  rw [Int32.toInt_ofNat_of_lt (by omega), Int32.toInt_ofNat_of_lt (by omega)] at htoInt
  exact ⟨Int.ofNat_inj.1 htoInt, hrest⟩

/-- Bytes before the first zero byte are told apart, and so is what follows it. -/
theorem zero_append_inj {s t x y : Bytes} (hs : s.contains 0 = false) (ht : t.contains 0 = false)
    (heq : s ++ 0 :: x = t ++ 0 :: y) : s = t ∧ x = y := by
  induction s generalizing t with
  | nil =>
    cases t with
    | nil => exact ⟨rfl, List.tail_eq_of_cons_eq heq⟩
    | cons b t =>
      -- the other text would have its zero byte here
      obtain ⟨rfl, -⟩ := List.cons.inj heq
      simp at ht
  | cons a s ih =>
    cases t with
    | nil =>
      obtain ⟨rfl, -⟩ := List.cons.inj heq
      simp at hs
    | cons b t =>
      obtain ⟨rfl, htail⟩ := List.cons.inj heq
      simp only [List.contains_cons, Bool.or_eq_false_iff] at hs ht
      obtain ⟨rfl, hrest⟩ := ih hs.2 ht.2 htail
      exact ⟨rfl, hrest⟩

/-- **Texts are told apart by the zero byte that ends them**, as none of them
has a zero byte of its own. -/
theorem separates_ofString? : Separates ofString? id := by
  intro s t p q x y hs ht heq
  unfold ofString? at hs ht
  simp only at hs ht
  split at hs <;> split at ht <;> cases hs <;> cases ht
  rename_i hs ht
  rw [List.append_assoc, List.append_assoc] at heq
  obtain ⟨hbytes, hrest⟩ := zero_append_inj (by simpa using hs) (by simpa using ht) heq
  exact ⟨Utf8.encode_injective hbytes, hrest⟩

/-- **Numbers after their count are told apart bit for bit**, whether they are
finite or not. -/
theorem separates_ofSingles? : Separates ofSingles? id := by
  intro xs ys p q x y hxs hys heq
  obtain ⟨c, hc, hxs⟩ := bind_eq_ok.1 hxs
  obtain ⟨d, hd, hys⟩ := bind_eq_ok.1 hys
  cases hxs
  cases hys
  rw [List.append_assoc, List.append_assoc] at heq
  obtain ⟨hlen, heq⟩ := separates_ofLength? hc hd heq
  exact flatMap_ofSingle_append_inj hlen heq

end Bytes

end MapDocument
