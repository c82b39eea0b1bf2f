import MapDocument.Bytes.Base64
import MapDocument.Proofs.Outcome
import MapDocument.Proofs.Text.Utf8
import MapDocument.Text.Blank
/-!
# Bytes — base64 reads back what it writes

Everything about a single symbol is known from the sixty-four of them. A
text is read group by group, so the proofs follow the groups in which it was
written: three bytes at a time, and one or two at the end.
-/

namespace MapDocument.Base64

/-! ## Symbols -/

/-- The byte of a symbol. -/
def byteOf (c : Char) : UInt8 := UInt8.ofNat c.toNat

/-- Symbols are characters of one byte that are not blank, and have the value
that they were written for. -/
theorem symbol_spec : ∀ n < 64, (symbol n).toNat < 128 ∧ isBlank (symbol n) = false ∧
    value? (byteOf (symbol n)) = some n := by
  decide

/-- What is read is the value that was written. -/
theorem valueAt_symbol {n position : Nat} (h : n < 64) :
    valueAt position (byteOf (symbol n)) = .ok n := by
  rw [valueAt, (symbol_spec n h).2.2]

/-- No symbol of a value is the fill. -/
theorem byteOf_symbol_ne_fill {n : Nat} (h : n < 64) : byteOf (symbol n) ≠ fill := by
  intro heq
  have hvalue := (symbol_spec n h).2.2
  rw [heq] at hvalue
  cases hvalue

/-- The symbols of bytes are symbols of six-bit values, or fill. -/
theorem mem_symbols {bytes : Bytes} {c : Char} (h : c ∈ symbols bytes) :
    (∃ n < 64, c = symbol n) ∨ c = '=' := by
  have hmod (n : Nat) : n % 64 < 64 := Nat.mod_lt n (by decide)
  induction bytes using symbols.induct with
  | case1 => cases h
  | case2 a =>
    have ha := a.toNat_lt
    simp only [symbols, List.mem_cons, List.not_mem_nil, or_false] at h
    rcases h with rfl | rfl | rfl | rfl
    · exact .inl ⟨_, by omega, rfl⟩
    · exact .inl ⟨_, by omega, rfl⟩
    · exact .inr rfl
    · exact .inr rfl
  | case3 a b =>
    have ha := a.toNat_lt
    have hb := b.toNat_lt
    simp only [symbols, List.mem_cons, List.not_mem_nil, or_false] at h
    rcases h with rfl | rfl | rfl | rfl
    · exact .inl ⟨_, by omega, rfl⟩
    · exact .inl ⟨_, by omega, rfl⟩
    · exact .inl ⟨_, by omega, rfl⟩
    · exact .inr rfl
  | case4 a b c rest ih =>
    have ha := a.toNat_lt
    have hb := b.toNat_lt
    have hc := c.toNat_lt
    simp only [symbols, List.mem_cons] at h
    rcases h with rfl | rfl | rfl | rfl | h
    · exact .inl ⟨_, by omega, rfl⟩
    · exact .inl ⟨_, by omega, rfl⟩
    · exact .inl ⟨_, by omega, rfl⟩
    · exact .inl ⟨_, by omega, rfl⟩
    · exact ih h

/-- No symbol is blank, and all of them are characters of one byte. -/
theorem symbols_spec {bytes : Bytes} {c : Char} (h : c ∈ symbols bytes) :
    c.toNat < 128 ∧ isBlank c = false := by
  rcases mem_symbols h with ⟨n, hn, rfl⟩ | rfl
  · exact ⟨(symbol_spec n hn).1, (symbol_spec n hn).2.1⟩
  · decide

/-- A text has whole groups. -/
theorem length_symbols_mod (bytes : Bytes) : (symbols bytes).length % 4 = 0 := by
  induction bytes using symbols.induct with
  | case1 => rfl
  | case2 a => simp [symbols]
  | case3 a b => simp [symbols]
  | case4 a b c rest ih =>
    simp only [symbols, List.length_cons]
    omega

/-- Something is written for every byte. -/
theorem symbols_ne_nil (a : UInt8) (rest : Bytes) : symbols (a :: rest) ≠ [] := by
  match rest with
  | [] => simp [symbols]
  | [b] => simp [symbols]
  | b :: c :: rest => simp [symbols]

/-! ## Groups -/

/-- Three bytes come back from four values. -/
theorem groupBytes_eq (a b c : UInt8) :
    groupBytes (a.toNat / 4) (a.toNat % 4 * 16 + b.toNat / 16) (b.toNat % 16 * 4 + c.toNat / 64)
      (c.toNat % 64) = [a, b, c] := by
  have ha := a.toNat_lt
  have hb := b.toNat_lt
  have hc := c.toNat_lt
  have hfirst : a.toNat / 4 * 4 + (a.toNat % 4 * 16 + b.toNat / 16) / 16 = a.toNat := by omega
  have hsecond : (a.toNat % 4 * 16 + b.toNat / 16) % 16 * 16 +
      (b.toNat % 16 * 4 + c.toNat / 64) / 4 = b.toNat := by omega
  have hthird : (b.toNat % 16 * 4 + c.toNat / 64) % 4 * 64 + c.toNat % 64 = c.toNat := by omega
  rw [groupBytes, hfirst, hsecond, hthird, UInt8.ofNat_toNat, UInt8.ofNat_toNat, UInt8.ofNat_toNat]

section LastGroup

variable {a b c d position : Nat}

/-- A symbol of a last group gives its value. -/
theorem lastValues_symbol {index : Nat} {rest : Bytes} (ha : a < 64) :
    lastValues position index none (byteOf (symbol a) :: rest) = (do
      return a :: (← lastValues position (index + 1) none rest)) := by
  rw [lastValues, if_neg (byteOf_symbol_ne_fill ha)]
  simp only [valueAt_symbol ha]
  rfl

/-- A last group of one byte. -/
theorem lastBytes_one (ha : a < 64) (hb : b < 64) (hzero : b % 16 = 0) :
    lastBytes position [byteOf (symbol a), byteOf (symbol b), fill, fill] =
      .ok [UInt8.ofNat (a * 4 + b / 16)] := by
  unfold lastBytes
  rw [lastValues_symbol ha, lastValues_symbol hb]
  simp [lastValues, hzero, bind, Except.bind, pure, Except.pure]

/-- A last group of two bytes. -/
theorem lastBytes_two (ha : a < 64) (hb : b < 64) (hc : c < 64) (hzero : c % 4 = 0) :
    lastBytes position [byteOf (symbol a), byteOf (symbol b), byteOf (symbol c), fill] =
      .ok [UInt8.ofNat (a * 4 + b / 16), UInt8.ofNat (b % 16 * 16 + c / 4)] := by
  unfold lastBytes
  rw [lastValues_symbol ha, lastValues_symbol hb, lastValues_symbol hc]
  simp [lastValues, hzero, bind, Except.bind, pure, Except.pure]

/-- A last group of three bytes. -/
theorem lastBytes_three (ha : a < 64) (hb : b < 64) (hc : c < 64) (hd : d < 64) :
    lastBytes position
        [byteOf (symbol a), byteOf (symbol b), byteOf (symbol c), byteOf (symbol d)] =
      .ok (groupBytes a b c d) := by
  unfold lastBytes
  rw [lastValues_symbol ha, lastValues_symbol hb, lastValues_symbol hc, lastValues_symbol hd]
  simp [lastValues, bind, Except.bind, pure, Except.pure]

end LastGroup

/-- A group that is not the last gives three bytes. -/
theorem groups_four {a b c d position : Nat} {more : UInt8} {rest : Bytes} (ha : a < 64)
    (hb : b < 64) (hc : c < 64) (hd : d < 64) :
    groups position (byteOf (symbol a) :: byteOf (symbol b) :: byteOf (symbol c) ::
        byteOf (symbol d) :: more :: rest) =
      (do return groupBytes a b c d ++ (← groups (position + 4) (more :: rest))) := by
  rw [groups, valueAt_symbol ha, valueAt_symbol hb, valueAt_symbol hc, valueAt_symbol hd]
  rfl

/-- **Groups give back the bytes that they were written for.** -/
theorem groups_symbols (bytes : Bytes) (position : Nat) :
    groups position ((symbols bytes).map byteOf) = .ok bytes := by
  induction bytes using symbols.induct generalizing position with
  | case1 => rfl
  | case2 a =>
    have ha := a.toNat_lt
    have hlast : lastBytes position ((symbols [a]).map byteOf) = _ :=
      lastBytes_one (a := a.toNat / 4) (b := a.toNat % 4 * 16) (by omega) (by omega) (by omega)
    have hbyte : a.toNat / 4 * 4 + a.toNat % 4 * 16 / 16 = a.toNat := by omega
    rw [hbyte, UInt8.ofNat_toNat] at hlast
    exact hlast
  | case3 a b =>
    have ha := a.toNat_lt
    have hb := b.toNat_lt
    have hlast : lastBytes position ((symbols [a, b]).map byteOf) = _ :=
      lastBytes_two (a := a.toNat / 4) (b := a.toNat % 4 * 16 + b.toNat / 16)
        (c := b.toNat % 16 * 4) (by omega) (by omega) (by omega) (by omega)
    have hfirst : a.toNat / 4 * 4 + (a.toNat % 4 * 16 + b.toNat / 16) / 16 = a.toNat := by omega
    have hsecond : (a.toNat % 4 * 16 + b.toNat / 16) % 16 * 16 + b.toNat % 16 * 4 / 4 =
        b.toNat := by omega
    rw [hfirst, hsecond, UInt8.ofNat_toNat, UInt8.ofNat_toNat] at hlast
    exact hlast
  | case4 a b c rest ih =>
    have ha := a.toNat_lt
    have hb := b.toNat_lt
    have hc := c.toNat_lt
    rw [symbols, List.map_cons, List.map_cons, List.map_cons, List.map_cons]
    match rest with
    | [] =>
      exact (lastBytes_three (by omega) (by omega) (by omega) (by omega)).trans
        (congrArg Except.ok (groupBytes_eq a b c))
    | d :: rest =>
      -- something follows, so this group is not read as a last one
      obtain ⟨e, es, hes⟩ := List.exists_cons_of_ne_nil (symbols_ne_nil d rest)
      have hrest := ih (position + 4)
      rw [hes, List.map_cons] at hrest ⊢
      rw [groups_four (by omega) (by omega) (by omega) (by omega), hrest, groupBytes_eq]
      rfl

/-- **Bytes come back from their symbols.** -/
theorem decode_symbols (bytes : Bytes) : decode ((symbols bytes).map byteOf) = .ok bytes := by
  have hend : checkEnd ((symbols bytes).map byteOf) = .ok () := by
    have hmod := length_symbols_mod bytes
    unfold checkEnd
    split
    · rw [if_neg]
      simp [hmod]
    · rfl
  exact (congrArg (· >>= fun _ => groups 0 _) hend).trans (groups_symbols bytes 0)

/-- The bytes of a text are those of its symbols. -/
theorem encode_encode (bytes : Bytes) : Utf8.encode (encode bytes) = (symbols bytes).map byteOf :=
  Utf8.encode_ofList_of_lt fun _ hc => (symbols_spec hc).1

/-- There is nothing in a text that would be taken out of it with the blanks. -/
theorem filter_symbols (bytes : Bytes) : (symbols bytes).filter (!isBlank ·) = symbols bytes := by
  refine List.filter_eq_self.2 fun c hc => ?_
  rw [(symbols_spec hc).2]
  rfl

/-- **Bytes come back from their text**, also where blanks are taken out of it,
as there are none. -/
theorem decode_encode (bytes : Bytes) :
    decode (Utf8.encode (String.ofList ((encode bytes).toList.filter (!isBlank ·)))) =
      .ok bytes := by
  rw [encode, String.toList_ofList, filter_symbols]
  exact (congrArg decode (encode_encode bytes)).trans (decode_symbols bytes)

end MapDocument.Base64
