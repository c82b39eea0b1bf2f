import MapDocument.Text.Utf8
/-!
# Text — UTF-8 tells texts apart

No two texts have the same bytes, and the only character that puts a zero
byte into a text is the zero character. The first is the standard library's,
read through `encode_eq`; the second looks at the four lengths a character
can have.
-/

namespace MapDocument.Utf8

/-- The bytes of a text are those that the standard library keeps for it. -/
theorem encode_eq (s : String) : encode s = s.toByteArray.data.toList := by
  rw [← String.utf8Encode_toList, List.utf8Encode]
  simp [encode]

/-- **No two texts have the same bytes.** -/
theorem encode_injective {s t : String} (h : encode s = encode t) : s = t := by
  rw [encode_eq, encode_eq] at h
  have hdata : s.toByteArray.data = t.toByteArray.data := Array.toList_inj.1 h
  exact String.toByteArray_inj.1 (ByteArray.ext hdata)

/-- Only the zero character has a zero byte. -/
theorem zero_mem_utf8EncodeChar {c : Char} :
    (0 : UInt8) ∈ String.utf8EncodeChar c ↔ c = '\x00' := by
  have hzero (n : Nat) (hn : n < 256) : (0 : UInt8) = UInt8.ofNat n ↔ n = 0 := by
    rw [← UInt8.toNat_inj, UInt8.toNat_ofNat', Nat.mod_eq_of_lt hn]
    exact eq_comm
  have hval : c = '\x00' ↔ c.val.toNat = 0 := by
    rw [← Char.val_inj, ← UInt32.toNat_inj]
    rfl
  rw [hval, String.utf8EncodeChar]
  -- one, two, three or four bytes, of which only the first length can be zero
  repeat' split
  · rw [List.mem_singleton, hzero _ (by omega)]
  all_goals
    simp only [List.mem_cons, List.not_mem_nil, or_false]
    repeat rw [hzero _ (by omega)]
    omega

/-- A text has a zero byte where it has the zero character. -/
theorem contains_zero_encode {s : String} : (encode s).contains 0 = s.toList.contains '\x00' := by
  rw [Bool.eq_iff_iff, List.contains_iff_mem, List.contains_iff_mem, encode, List.mem_flatMap]
  simp [zero_mem_utf8EncodeChar]

/-- The byte of a character below 128 is its number. -/
theorem utf8EncodeChar_of_lt {c : Char} (h : c.toNat < 128) :
    String.utf8EncodeChar c = [UInt8.ofNat c.toNat] := by
  have : c.val.toNat ≤ 0x7f := Nat.le_of_lt_succ h
  rw [String.utf8EncodeChar, if_pos this]
  rfl

/-- And so the bytes of characters below 128 are their numbers. -/
theorem encode_ofList_of_lt {cs : List Char} (h : ∀ c ∈ cs, c.toNat < 128) :
    encode (String.ofList cs) = cs.map fun c => UInt8.ofNat c.toNat := by
  rw [encode, String.toList_ofList]
  induction cs with
  | nil => rfl
  | cons c rest ih =>
    rw [List.flatMap_cons, utf8EncodeChar_of_lt (h c List.mem_cons_self),
      ih fun d hd => h d (List.mem_cons_of_mem c hd)]
    rfl

end MapDocument.Utf8
