import MapDocument.Bytes.LittleEndian
/-!
# Bytes — words come back from their bytes

The bytes of a word have a fixed length, and the word is read back from
them. What a word says can therefore be told from its bytes, and where it
ends from its type alone.
-/

namespace MapDocument

/-- A word has as many bytes as it was given. -/
@[simp] theorem length_littleEndian (count n : Nat) : (littleEndian count n).length = count := by
  induction count generalizing n with
  | zero => rfl
  | succ count ih => simp [littleEndian, ih]

/-- **A number that fits comes back from its bytes.** -/
theorem ofLittleEndian_littleEndian {count n : Nat} (h : n < Nat.pow 256 count) :
    ofLittleEndian (littleEndian count n) = n := by
  induction count generalizing n with
  | zero =>
    have : n = 0 := Nat.lt_one_iff.1 h
    rw [this]
    rfl
  | succ count ih =>
    have hsucc : Nat.pow 256 (count + 1) = Nat.pow 256 count * 256 := rfl
    have hdiv : n / 256 < Nat.pow 256 count := by omega
    rw [littleEndian, ofLittleEndian, ih hdiv, UInt8.toNat_ofNat', Nat.mod_add_div]

/-- Bytes make a number that as many bytes have room for. -/
theorem ofLittleEndian_lt (bytes : Bytes) : ofLittleEndian bytes < Nat.pow 256 bytes.length := by
  induction bytes with
  | nil => exact Nat.one_pos
  | cons b rest ih =>
    have hsucc : Nat.pow 256 (rest.length + 1) = Nat.pow 256 rest.length * 256 := rfl
    have hb := b.toNat_lt
    rw [ofLittleEndian, List.length_cons, hsucc]
    omega

/-- **Bytes come back from their number.** -/
theorem littleEndian_ofLittleEndian (bytes : Bytes) :
    littleEndian bytes.length (ofLittleEndian bytes) = bytes := by
  induction bytes with
  | nil => rfl
  | cons b rest ih =>
    have hb := b.toNat_lt
    have hdiv : (b.toNat + 256 * ofLittleEndian rest) / 256 = ofLittleEndian rest := by omega
    have hbyte : UInt8.ofNat (b.toNat + 256 * ofLittleEndian rest) = b := by
      rw [← UInt8.toNat_inj, UInt8.toNat_ofNat']
      omega
    rw [ofLittleEndian, List.length_cons, littleEndian, hdiv, ih, hbyte]

namespace Bytes

@[simp] theorem length_ofInt16 (n : Int16) : (ofInt16 n).length = 2 := length_littleEndian 2 _

@[simp] theorem length_ofInt32 (n : Int32) : (ofInt32 n).length = 4 := length_littleEndian 4 _

@[simp] theorem length_ofSingle (x : Single) : (ofSingle x).length = 4 := length_littleEndian 4 _

@[simp] theorem length_ofBool (b : Bool) : (ofBool b).length = 1 := rfl

@[simp] theorem toInt16_ofInt16 (n : Int16) : toInt16 (ofInt16 n) = n := by
  have h : n.toUInt16.toNat < Nat.pow 256 2 := n.toUInt16.toNat_lt
  rw [toInt16, ofInt16, ofLittleEndian_littleEndian h, UInt16.ofNat_toNat]
  rfl

@[simp] theorem toInt32_ofInt32 (n : Int32) : toInt32 (ofInt32 n) = n := by
  have h : n.toUInt32.toNat < Nat.pow 256 4 := n.toUInt32.toNat_lt
  rw [toInt32, ofInt32, ofLittleEndian_littleEndian h, UInt32.ofNat_toNat]
  rfl

@[simp] theorem toSingle_ofSingle (x : Single) : toSingle (ofSingle x) = x := by
  have h : x.bits.toNat < Nat.pow 256 4 := x.bits.isLt
  rw [toSingle, ofSingle, ofLittleEndian_littleEndian h, BitVec.ofNat_toNat, BitVec.setWidth_eq]

/-- Two bytes are those of the integer that they make. -/
theorem ofInt16_toInt16 {bytes : Bytes} (h : bytes.length = 2) : ofInt16 (toInt16 bytes) = bytes := by
  have hfits := ofLittleEndian_lt bytes
  rw [h] at hfits
  have hword : (toInt16 bytes).toUInt16.toNat = ofLittleEndian bytes := Nat.mod_eq_of_lt hfits
  rw [ofInt16, hword, ← h, littleEndian_ofLittleEndian]

/-- So are four. -/
theorem ofInt32_toInt32 {bytes : Bytes} (h : bytes.length = 4) : ofInt32 (toInt32 bytes) = bytes := by
  have hfits := ofLittleEndian_lt bytes
  rw [h] at hfits
  have hword : (toInt32 bytes).toUInt32.toNat = ofLittleEndian bytes := Nat.mod_eq_of_lt hfits
  rw [ofInt32, hword, ← h, littleEndian_ofLittleEndian]

/-- And of the number, whichever it is. -/
theorem ofSingle_toSingle {bytes : Bytes} (h : bytes.length = 4) :
    ofSingle (toSingle bytes) = bytes := by
  have hfits := ofLittleEndian_lt bytes
  rw [h] at hfits
  have hword : (toSingle bytes).bits.toNat = ofLittleEndian bytes := Nat.mod_eq_of_lt hfits
  rw [ofSingle, hword, ← h, littleEndian_ofLittleEndian]

/-- Numbers with the same bytes are the same number, bit for bit. -/
theorem ofSingle_injective {x y : Single} (h : ofSingle x = ofSingle y) : x = y := by
  rw [← toSingle_ofSingle x, h, toSingle_ofSingle]

/-- Four-byte integers with the same bytes are equal. -/
theorem ofInt32_injective {m n : Int32} (h : ofInt32 m = ofInt32 n) : m = n := by
  rw [← toInt32_ofInt32 m, h, toInt32_ofInt32]

/-- Two-byte integers with the same bytes are equal. -/
theorem ofInt16_injective {m n : Int16} (h : ofInt16 m = ofInt16 n) : m = n := by
  rw [← toInt16_ofInt16 m, h, toInt16_ofInt16]

/-- Truth values with the same byte are equal. -/
theorem ofBool_injective {a b : Bool} (h : ofBool a = ofBool b) : a = b := by
  revert h
  cases a <;> cases b <;> decide

/-- **Sequences of as many numbers are told apart**, whatever follows them. -/
theorem flatMap_ofSingle_append_inj {xs ys : List Single} {x y : Bytes}
    (hlen : xs.length = ys.length) (h : xs.flatMap ofSingle ++ x = ys.flatMap ofSingle ++ y) :
    xs = ys ∧ x = y := by
  induction xs generalizing ys with
  | nil =>
    cases ys with
    | nil => exact ⟨rfl, h⟩
    | cons b ys => simp at hlen
  | cons a xs ih =>
    cases ys with
    | nil => simp at hlen
    | cons b ys =>
      rw [List.flatMap_cons, List.flatMap_cons, List.append_assoc, List.append_assoc] at h
      obtain ⟨hhead, htail⟩ := List.append_inj h (by simp)
      obtain ⟨rfl, hrest⟩ := ih (Nat.succ.inj hlen) htail
      exact ⟨by rw [ofSingle_injective hhead], hrest⟩

/-- Numbers take up four bytes each. -/
@[simp] theorem length_flatMap_ofSingle (xs : List Single) :
    (xs.flatMap ofSingle).length = 4 * xs.length := by
  induction xs with
  | nil => rfl
  | cons x xs ih =>
    rw [List.flatMap_cons, List.length_append, ih, length_ofSingle, List.length_cons]
    omega

end Bytes

end MapDocument
