import MapDocument.Proofs.Outcome
import MapDocument.Proofs.Text.Utf8
/-!
# Text — UTF-8 reads back what it writes, and nothing else

A text is read character by character, in one to four bytes. The bounds on the
second byte leave out the numbers that no character has, and those that fit in
fewer bytes, so a character is spelled by its own bytes and by no others.
-/

namespace MapDocument.Utf8

variable {a b c d : UInt8} {ch : Char} {rest bytes : Bytes} {position : Nat} {cs : List Char}

/-! ## Bytes that make a character -/

/-- The bounds on a second byte, as those of its number. -/
theorem isSecond_eq_true : isSecond a b = true ↔
    0x80 ≤ b.toNat ∧ b.toNat ≤ 0xbf ∧ (a.toNat = 0xe0 → 0xa0 ≤ b.toNat) ∧
      (a.toNat = 0xed → b.toNat ≤ 0x9f) ∧ (a.toNat = 0xf0 → 0x90 ≤ b.toNat) ∧
      (a.toNat = 0xf4 → b.toNat ≤ 0x8f) := by
  have hval (x : UInt8) (n : Nat) (hx : x.toNat = n) : a = x ↔ a.toNat = n := by
    rw [← hx, UInt8.toNat_inj]
  have he0 := hval 0xe0 0xe0 rfl
  have hed := hval 0xed 0xed rfl
  have hf0 := hval 0xf0 0xf0 rfl
  have hf4 := hval 0xf4 0xf4 rfl
  unfold isSecond secondBytes
  rw [Bool.and_eq_true, decide_eq_true_eq, decide_eq_true_eq, UInt8.le_iff_toNat_le,
    UInt8.le_iff_toNat_le]
  simp only [he0, hed, hf0, hf4]
  repeat' split
  all_goals
    simp only [UInt8.reduceToNat]
    omega

theorem isTail_eq_true : isTail b = true ↔ 0x80 ≤ b.toNat ∧ b.toNat ≤ 0xbf := by
  unfold isTail
  rw [Bool.and_eq_true, decide_eq_true_eq, decide_eq_true_eq, UInt8.le_iff_toNat_le,
    UInt8.le_iff_toNat_le]
  rfl

/-- Bytes spell a character: one byte, or a first byte and as many more as it asks for. -/
inductive Spells : Bytes → Char → Prop
  | one {a : UInt8} (ha : a.toNat < 0x80) : Spells [a] (Char.ofNat a.toNat)
  | two {a b : UInt8} (ha : 0xc2 ≤ a.toNat) (ha' : a.toNat < 0xe0) (hb : isSecond a b = true) :
    Spells [a, b] (Char.ofNat (a.toNat % 32 * 64 + payload b))
  | three {a b c : UInt8} (ha : 0xe0 ≤ a.toNat) (ha' : a.toNat < 0xf0) (hb : isSecond a b = true)
    (hc : isTail c = true) :
    Spells [a, b, c] (Char.ofNat ((a.toNat % 16 * 64 + payload b) * 64 + payload c))
  | four {a b c d : UInt8} (ha : 0xf0 ≤ a.toNat) (ha' : a.toNat ≤ 0xf4) (hb : isSecond a b = true)
    (hc : isTail c = true) (hd : isTail d = true) :
    Spells [a, b, c, d]
      (Char.ofNat (((a.toNat % 8 * 64 + payload b) * 64 + payload c) * 64 + payload d))

/-! ## A character is spelled by its own bytes -/

/-- The number of the character of a number. -/
theorem val_ofNat {n : Nat} (h : n.isValidChar) : (Char.ofNat n).val.toNat = n := by
  rw [Char.ofNat, dif_pos h]
  rfl

/-- A byte is that of its number. -/
theorem ofNat_of_eq {n : Nat} (h : n = a.toNat) : UInt8.ofNat n = a := by
  rw [h, UInt8.ofNat_toNat]

/-- **No other bytes spell a character than its own.** -/
theorem Spells.eq_utf8EncodeChar (h : Spells bytes ch) : bytes = String.utf8EncodeChar ch := by
  cases h with
  | @one a ha =>
    have hval := val_ofNat (n := a.toNat) (.inl (by omega))
    rw [String.utf8EncodeChar, hval, if_pos (by omega), UInt8.ofNat_toNat]
  | @two a b ha ha' hb =>
    have hsecond := isSecond_eq_true.1 hb
    have hpayload : payload b = b.toNat - 0x80 := by
      unfold payload
      omega
    have hval := val_ofNat (n := a.toNat % 32 * 64 + payload b) (.inl (by omega))
    rw [String.utf8EncodeChar, hval, if_neg (by omega), if_pos (by omega),
      ofNat_of_eq (a := a) (by omega), ofNat_of_eq (a := b) (by omega)]
  | @three a b c ha ha' hb hc =>
    have hsecond := isSecond_eq_true.1 hb
    have htail := isTail_eq_true.1 hc
    have hpayload : payload b = b.toNat - 0x80 ∧ payload c = c.toNat - 0x80 := by
      unfold payload
      omega
    -- the second byte leaves out what two bytes have, and the surrogates
    have hvalid : ((a.toNat % 16 * 64 + payload b) * 64 + payload c).isValidChar := by
      unfold Nat.isValidChar
      omega
    rw [String.utf8EncodeChar, val_ofNat hvalid, if_neg (by omega), if_neg (by omega),
      if_pos (by omega), ofNat_of_eq (a := a) (by omega), ofNat_of_eq (a := b) (by omega),
      ofNat_of_eq (a := c) (by omega)]
  | @four a b c d ha ha' hb hc hd =>
    have hsecond := isSecond_eq_true.1 hb
    have htail := isTail_eq_true.1 hc
    have htail' := isTail_eq_true.1 hd
    have hpayload : payload b = b.toNat - 0x80 ∧ payload c = c.toNat - 0x80 ∧
        payload d = d.toNat - 0x80 := by
      unfold payload
      omega
    -- here it leaves out what three bytes have, and what is beyond the last character
    have hvalid :
        (((a.toNat % 8 * 64 + payload b) * 64 + payload c) * 64 + payload d).isValidChar := by
      unfold Nat.isValidChar
      omega
    rw [String.utf8EncodeChar, val_ofNat hvalid, if_neg (by omega), if_neg (by omega),
      if_neg (by omega), ofNat_of_eq (a := a) (by omega), ofNat_of_eq (a := b) (by omega),
      ofNat_of_eq (a := c) (by omega), ofNat_of_eq (a := d) (by omega)]

/-- A number below 256 is that of its byte. -/
theorem toNat_ofNat_of_lt {n : Nat} (h : n < 256) : (UInt8.ofNat n).toNat = n := by
  rw [UInt8.toNat_ofNat', Nat.mod_eq_of_lt h]

/-- **And its own bytes do.** -/
theorem spells_utf8EncodeChar (ch : Char) : Spells (String.utf8EncodeChar ch) ch := by
  have hvalid : ch.val.toNat.isValidChar := ch.valid
  have hchar : Char.ofNat ch.val.toNat = ch := Char.ofNat_toNat ch
  unfold Nat.isValidChar at hvalid
  rw [String.utf8EncodeChar]
  generalize ch.val.toNat = v at hvalid hchar
  rw [← hchar]
  repeat' split
  · have ha := toNat_ofNat_of_lt (n := v) (by omega)
    have hspells : Spells [UInt8.ofNat v] (Char.ofNat (UInt8.ofNat v).toNat) := .one (by omega)
    rwa [ha] at hspells
  · have ha := toNat_ofNat_of_lt (n := v / 64 % 32 + 0xc0) (by omega)
    have hb := toNat_ofNat_of_lt (n := v % 64 + 0x80) (by omega)
    generalize UInt8.ofNat (v / 64 % 32 + 0xc0) = a at ha ⊢
    generalize UInt8.ofNat (v % 64 + 0x80) = b at hb ⊢
    have hspells := Spells.two (a := a) (b := b) (by omega) (by omega)
      (isSecond_eq_true.2 (by omega))
    have hnumber : a.toNat % 32 * 64 + payload b = v := by
      unfold payload
      omega
    rwa [hnumber] at hspells
  · have ha := toNat_ofNat_of_lt (n := v / 4096 % 16 + 0xe0) (by omega)
    have hb := toNat_ofNat_of_lt (n := v / 64 % 64 + 0x80) (by omega)
    have hc := toNat_ofNat_of_lt (n := v % 64 + 0x80) (by omega)
    generalize UInt8.ofNat (v / 4096 % 16 + 0xe0) = a at ha ⊢
    generalize UInt8.ofNat (v / 64 % 64 + 0x80) = b at hb ⊢
    generalize UInt8.ofNat (v % 64 + 0x80) = c at hc ⊢
    have hspells := Spells.three (a := a) (b := b) (c := c) (by omega) (by omega)
      (isSecond_eq_true.2 (by omega)) (isTail_eq_true.2 (by omega))
    have hnumber : (a.toNat % 16 * 64 + payload b) * 64 + payload c = v := by
      unfold payload
      omega
    rwa [hnumber] at hspells
  · have ha := toNat_ofNat_of_lt (n := v / 262144 % 8 + 0xf0) (by omega)
    have hb := toNat_ofNat_of_lt (n := v / 4096 % 64 + 0x80) (by omega)
    have hc := toNat_ofNat_of_lt (n := v / 64 % 64 + 0x80) (by omega)
    have hd := toNat_ofNat_of_lt (n := v % 64 + 0x80) (by omega)
    generalize UInt8.ofNat (v / 262144 % 8 + 0xf0) = a at ha ⊢
    generalize UInt8.ofNat (v / 4096 % 64 + 0x80) = b at hb ⊢
    generalize UInt8.ofNat (v / 64 % 64 + 0x80) = c at hc ⊢
    generalize UInt8.ofNat (v % 64 + 0x80) = d at hd ⊢
    have hspells := Spells.four (a := a) (b := b) (c := c) (d := d) (by omega) (by omega)
      (isSecond_eq_true.2 (by omega)) (isTail_eq_true.2 (by omega)) (isTail_eq_true.2 (by omega))
    have hnumber : ((a.toNat % 8 * 64 + payload b) * 64 + payload c) * 64 + payload d = v := by
      unfold payload
      omega
    rwa [hnumber] at hspells

/-! ## Reading -/

/-- A character stands before those that are read after it. -/
theorem cons_eq_ok {x : Except Error (List Char)} :
    (do return ch :: (← x)) = Except.ok cs ↔ ∃ later, x = .ok later ∧ cs = ch :: later := by
  cases x <;> simp [bind, Except.bind, pure, Except.pure, eq_comm]

/-- A first byte of several is neither too small for one nor too great. -/
theorem first_iff : ¬ (decide (a < 0xc2) || decide (0xf4 < a)) = true ↔
    0xc2 ≤ a.toNat ∧ a.toNat ≤ 0xf4 := by
  rw [Bool.or_eq_true, decide_eq_true_eq, decide_eq_true_eq, UInt8.lt_iff_toNat_lt,
    UInt8.lt_iff_toNat_lt]
  simp only [UInt8.reduceToNat]
  omega

/-- A character that is spelled first is read first. -/
theorem Spells.decodeFrom (h : Spells bytes ch) (rest : Bytes) (position : Nat) :
    Utf8.decodeFrom position (bytes ++ rest) = do
      return ch :: (← Utf8.decodeFrom (position + bytes.length) rest) := by
  have hless {x y : UInt8} (hxy : x.toNat < y.toNat) : x < y := UInt8.lt_iff_toNat_lt.2 hxy
  have hmore {x y : UInt8} (hxy : y.toNat ≤ x.toNat) : ¬ x < y :=
    fun hlt => Nat.not_lt.2 hxy (UInt8.lt_iff_toNat_lt.1 hlt)
  have hmeant {x : Bool} (hx : x = true) : ¬ (!x) = true := by simp [hx]
  have h80 : (0x80 : UInt8).toNat = 0x80 := rfl
  have he0 : (0xe0 : UInt8).toNat = 0xe0 := rfl
  have hf0 : (0xf0 : UInt8).toNat = 0xf0 := rfl
  rw [decodeFrom.eq_def]
  cases h with
  | @one a ha => exact if_pos (hless (by omega))
  | @two a b ha ha' hb =>
    have hfirst := first_iff.2 ⟨ha, by omega⟩
    simp only [List.cons_append, List.nil_append]
    rw [if_neg (hmore (by omega)), if_neg hfirst, if_neg (hmeant hb), if_pos (hless (by omega))]
    rfl
  | @three a b c ha ha' hb hc =>
    have hfirst := first_iff.2 ⟨Nat.le_trans (by decide) ha, by omega⟩
    simp only [List.cons_append, List.nil_append]
    rw [if_neg (hmore (by omega)), if_neg hfirst, if_neg (hmeant hb), if_neg (hmore (by omega)),
      if_neg (hmeant hc), if_pos (hless (by omega))]
    rfl
  | @four a b c d ha ha' hb hc hd =>
    have hfirst := first_iff.2 ⟨Nat.le_trans (by decide) ha, ha'⟩
    simp only [List.cons_append, List.nil_append]
    rw [if_neg (hmore (by omega)), if_neg hfirst, if_neg (hmeant hb), if_neg (hmore (by omega)),
      if_neg (hmeant hc), if_neg (hmore (by omega)), if_neg (hmeant hd)]
    rfl

/-- Characters come back from their bytes. -/
theorem decodeFrom_flatMap (cs : List Char) (position : Nat) :
    decodeFrom position (cs.flatMap String.utf8EncodeChar) = .ok cs := by
  induction cs generalizing position with
  | nil => rfl
  | cons ch cs ih => rw [List.flatMap_cons, (spells_utf8EncodeChar ch).decodeFrom, ih]; rfl

/-- **What is read are the characters whose bytes are there.** -/
theorem eq_of_decodeFrom (h : decodeFrom position bytes = .ok cs) :
    bytes = cs.flatMap String.utf8EncodeChar := by
  fun_induction decodeFrom position bytes generalizing cs with
  | case1 =>
    cases h
    rfl
  | case2 position a rest ha ih =>
    obtain ⟨later, hlater, rfl⟩ := cons_eq_ok.1 h
    rw [UInt8.lt_iff_toNat_lt] at ha
    rw [List.flatMap_cons, ← (Spells.one ha).eq_utf8EncodeChar, ← ih hlater]
    rfl
  | case3 => cases h
  | case4 => cases h
  | case5 => cases h
  | case6 position a _ ha b rest hb ha' ch =>
    rename_i ih
    obtain ⟨later, hlater, rfl⟩ := cons_eq_ok.1 h
    have hfirst := first_iff.1 ha
    rw [Bool.not_eq_true', Bool.not_eq_false] at hb
    rw [UInt8.lt_iff_toNat_lt] at ha'
    rw [List.flatMap_cons, ← (Spells.two hfirst.1 ha' hb).eq_utf8EncodeChar, ← ih hlater]
    rfl
  | case7 => cases h
  | case8 => cases h
  | case9 position a _ ha b hb ha' c rest hc ha'' ch =>
    rename_i ih
    obtain ⟨later, hlater, rfl⟩ := cons_eq_ok.1 h
    rw [Bool.not_eq_true', Bool.not_eq_false] at hb hc
    rw [UInt8.lt_iff_toNat_lt] at ha' ha''
    rw [List.flatMap_cons, ← (Spells.three (Nat.le_of_not_lt ha') ha'' hb hc).eq_utf8EncodeChar,
      ← ih hlater]
    rfl
  | case10 => cases h
  | case11 => cases h
  | case12 position a _ ha b hb ha' c hc ha'' d rest hd ch =>
    rename_i ih
    obtain ⟨later, hlater, rfl⟩ := cons_eq_ok.1 h
    have hfirst := first_iff.1 ha
    rw [Bool.not_eq_true', Bool.not_eq_false] at hb hc hd
    rw [UInt8.lt_iff_toNat_lt] at ha''
    rw [List.flatMap_cons,
      ← (Spells.four (Nat.le_of_not_lt ha'') hfirst.2 hb hc hd).eq_utf8EncodeChar, ← ih hlater]
    rfl

/-- **A text is read from its own bytes and from no others.** -/
theorem decode_eq_ok {s : String} : decode bytes = .ok s ↔ bytes = encode s := by
  unfold decode
  constructor
  · intro h
    cases hfrom : decodeFrom 0 bytes with
    | error e =>
      rw [hfrom] at h
      cases h
    | ok cs =>
      rw [hfrom] at h
      cases h
      rw [eq_of_decodeFrom hfrom, encode, String.toList_ofList]
  · rintro rfl
    rw [encode, decodeFrom_flatMap]
    exact congrArg Except.ok String.ofList_toList

end MapDocument.Utf8
