import MapDocument.Proofs.Bytes.Base64
/-!
# Bytes — base64 reads nothing but what it writes

A text that is read is the text of the bytes that it gives (`decode_eq_ok`), so bytes
have one text only. What keeps a second one out is looked at where it could come in: two
symbols of one value, a fill that is missing or stands too early, and bits that no byte
has a place for.
-/

namespace MapDocument.Base64

variable {a b c d position index : Nat} {values : List Nat} {group text bytes : Bytes}

/-! ## Symbols -/

/-- The symbol of the value of a byte is that byte, whichever of the bytes it is. -/
theorem all_value? : ∀ n < 256,
    ((value? (UInt8.ofNat n)).all fun a => a < 64 && byteOf (symbol a) = UInt8.ofNat n) = true := by
  decide +kernel

/-- **Only the symbol of a value has that value.** -/
theorem value?_eq_some {x : UInt8} : value? x = some a ↔ a < 64 ∧ x = byteOf (symbol a) := by
  constructor
  · intro h
    have hall := all_value? x.toNat x.toNat_lt
    rw [UInt8.ofNat_toNat, h, Option.all_some, Bool.and_eq_true, decide_eq_true_eq,
      decide_eq_true_eq] at hall
    exact ⟨hall.1, hall.2.symm⟩
  · rintro ⟨ha, rfl⟩
    exact (symbol_spec a ha).2.2

/-- What is read of a symbol is its value. -/
theorem valueAt_eq_ok {x : UInt8} :
    valueAt position x = .ok a ↔ a < 64 ∧ x = byteOf (symbol a) := by
  rw [← value?_eq_some, valueAt]
  cases value? x with
  | some n => simp
  | none => simp

/-! ## Groups -/

/-- After the first fill there is nothing but fill. -/
theorem eq_replicate_of_lastValues {first : Nat}
    (h : lastValues position index (some first) group = .ok values) :
    values = [] ∧ group = List.replicate group.length fill := by
  induction group generalizing index with
  | nil =>
    cases h
    exact ⟨rfl, rfl⟩
  | cons x rest ih =>
    rw [lastValues] at h
    split at h
    · rename_i hfill
      split at h
      · cases h
      · obtain ⟨hvalues, hrest⟩ := ih h
        refine ⟨hvalues, ?_⟩
        rw [List.length_cons, List.replicate_succ, ← hrest, hfill]
    · cases h

/-- The values of a last group are those of its symbols, and what comes after them is fill. -/
theorem eq_append_of_lastValues (h : lastValues position index none group = .ok values) :
    (∀ n ∈ values, n < 64) ∧ ∃ k, group = values.map (byteOf ∘ symbol) ++ List.replicate k fill := by
  induction group generalizing index values with
  | nil =>
    cases h
    exact ⟨nofun, 0, rfl⟩
  | cons x rest ih =>
    rw [lastValues] at h
    split at h
    · rename_i hfill
      split at h
      · cases h
      · obtain ⟨rfl, hrest⟩ := eq_replicate_of_lastValues h
        refine ⟨nofun, rest.length + 1, ?_⟩
        rw [List.replicate_succ, ← hrest, hfill]
        rfl
    · obtain ⟨n, hn, h⟩ := bind_eq_ok.1 h
      obtain ⟨ns, hns, h⟩ := bind_eq_ok.1 h
      cases h
      obtain ⟨hlt, hx⟩ := valueAt_eq_ok.1 hn
      obtain ⟨hall, k, hrest⟩ := ih hns
      refine ⟨List.forall_mem_cons.2 ⟨hlt, hall⟩, k, ?_⟩
      rw [hx, hrest]
      rfl

/-- Three bytes are written with the four values that they were put together from. -/
theorem symbols_groupBytes_append (ha : a < 64) (hb : b < 64) (hc : c < 64) (hd : d < 64)
    (more : Bytes) :
    symbols (groupBytes a b c d ++ more) =
      symbol a :: symbol b :: symbol c :: symbol d :: symbols more := by
  have hx : (UInt8.ofNat (a * 4 + b / 16)).toNat = a * 4 + b / 16 :=
    UInt8.toNat_ofNat_of_lt' (by simp only [UInt8.size]; omega)
  have hy : (UInt8.ofNat (b % 16 * 16 + c / 4)).toNat = b % 16 * 16 + c / 4 :=
    UInt8.toNat_ofNat_of_lt' (by simp only [UInt8.size]; omega)
  have hz : (UInt8.ofNat (c % 4 * 64 + d)).toNat = c % 4 * 64 + d :=
    UInt8.toNat_ofNat_of_lt' (by simp only [UInt8.size]; omega)
  have hfirst : (a * 4 + b / 16) / 4 = a := by omega
  have hsecond : (a * 4 + b / 16) % 4 * 16 + (b % 16 * 16 + c / 4) / 16 = b := by omega
  have hthird : (b % 16 * 16 + c / 4) % 16 * 4 + (c % 4 * 64 + d) / 64 = c := by omega
  have hfourth : (c % 4 * 64 + d) % 64 = d := by omega
  rw [groupBytes, List.cons_append, List.cons_append, List.cons_append, List.nil_append, symbols,
    hx, hy, hz, hfirst, hsecond, hthird, hfourth]

/-- Two bytes are written with the three values that they were put together from, if those
have no bits left over. -/
theorem symbols_two (ha : a < 64) (hb : b < 64) (hc : c < 64) (hzero : c % 4 = 0) :
    symbols [UInt8.ofNat (a * 4 + b / 16), UInt8.ofNat (b % 16 * 16 + c / 4)] =
      [symbol a, symbol b, symbol c, '='] := by
  have hx : (UInt8.ofNat (a * 4 + b / 16)).toNat = a * 4 + b / 16 :=
    UInt8.toNat_ofNat_of_lt' (by simp only [UInt8.size]; omega)
  have hy : (UInt8.ofNat (b % 16 * 16 + c / 4)).toNat = b % 16 * 16 + c / 4 :=
    UInt8.toNat_ofNat_of_lt' (by simp only [UInt8.size]; omega)
  have hfirst : (a * 4 + b / 16) / 4 = a := by omega
  have hsecond : (a * 4 + b / 16) % 4 * 16 + (b % 16 * 16 + c / 4) / 16 = b := by omega
  have hthird : (b % 16 * 16 + c / 4) % 16 * 4 = c := by omega
  rw [symbols, hx, hy, hfirst, hsecond, hthird]

/-- And one byte with two values. -/
theorem symbols_one (ha : a < 64) (hb : b < 64) (hzero : b % 16 = 0) :
    symbols [UInt8.ofNat (a * 4 + b / 16)] = [symbol a, symbol b, '=', '='] := by
  have hx : (UInt8.ofNat (a * 4 + b / 16)).toNat = a * 4 + b / 16 :=
    UInt8.toNat_ofNat_of_lt' (by simp only [UInt8.size]; omega)
  have hfirst : (a * 4 + b / 16) / 4 = a := by omega
  have hsecond : (a * 4 + b / 16) % 4 * 16 = b := by omega
  rw [symbols, hx, hfirst, hsecond]

/-- **A last group is the text of its bytes.** -/
theorem eq_of_lastBytes (hlength : group.length ≤ 4) (h : lastBytes position group = .ok bytes) :
    group = (symbols bytes).map byteOf := by
  obtain ⟨values, hvalues, h⟩ := bind_eq_ok.1 h
  obtain ⟨hall, k, hgroup⟩ := eq_append_of_lastValues hvalues
  have hcount : group.length = values.length + k := by
    rw [hgroup, List.length_append, List.length_map, List.length_replicate]
  -- a group that is not empty has at least two values, and fill for what is missing of four
  split at h
  · cases h
    rfl
  · cases h
  · cases h
  · rename_i a b rest hne
    obtain ⟨hwhole, h⟩ := unless_eq_ok.1 h
    rw [List.length_cons, List.length_cons] at hcount
    have hfour : group.length = 4 := by omega
    rw [hfour] at hcount
    have ha : a < 64 := hall a (by simp)
    have hb : b < 64 := hall b (by simp)
    match rest with
    | [] =>
      obtain ⟨hzero, h⟩ := unless_eq_ok.1 h
      cases h
      obtain rfl : k = 2 := by
        rw [List.length_nil] at hcount
        omega
      rw [hgroup, symbols_one ha hb (by omega)]
      rfl
    | [c] =>
      have hc : c < 64 := hall c (by simp)
      obtain ⟨hzero, h⟩ := unless_eq_ok.1 h
      cases h
      obtain rfl : k = 1 := by
        rw [List.length_singleton] at hcount
        omega
      rw [hgroup, symbols_two ha hb hc (by omega)]
      rfl
    | c :: d :: more =>
      have hc : c < 64 := hall c (by simp)
      have hd : d < 64 := hall d (by simp)
      cases h
      rw [List.length_cons, List.length_cons] at hcount
      obtain rfl : more = [] := List.eq_nil_of_length_eq_zero (by omega)
      obtain rfl : k = 0 := by omega
      rw [hgroup, ← List.append_nil (groupBytes a b c d), symbols_groupBytes_append ha hb hc hd]
      rfl

/-- **Groups are the text of their bytes.** -/
theorem eq_of_groups (h : groups position text = .ok bytes) :
    text = (symbols bytes).map byteOf := by
  induction position, text using groups.induct generalizing bytes with
  | case1 position x y z w v rest ih =>
    rw [groups] at h
    obtain ⟨a, hx, h⟩ := bind_eq_ok.1 h
    obtain ⟨b, hy, h⟩ := bind_eq_ok.1 h
    obtain ⟨c, hz, h⟩ := bind_eq_ok.1 h
    obtain ⟨d, hw, h⟩ := bind_eq_ok.1 h
    obtain ⟨more, hmore, h⟩ := bind_eq_ok.1 h
    cases h
    obtain ⟨ha, rfl⟩ := valueAt_eq_ok.1 hx
    obtain ⟨hb, rfl⟩ := valueAt_eq_ok.1 hy
    obtain ⟨hc, rfl⟩ := valueAt_eq_ok.1 hz
    obtain ⟨hd, rfl⟩ := valueAt_eq_ok.1 hw
    rw [symbols_groupBytes_append ha hb hc hd, ih hmore]
    rfl
  | case2 position last hlast =>
    have hlength : last.length ≤ 4 := by
      rcases last with _ | ⟨x, _ | ⟨y, _ | ⟨z, _ | ⟨w, _ | ⟨v, rest⟩⟩⟩⟩⟩
      case cons.cons.cons.cons.cons => exact (hlast x y z w v rest rfl).elim
      all_goals simp
    rw [groups] at h
    · exact eq_of_lastBytes hlength h
    · exact hlast

/-- **Symbols are read where they are those of bytes, and give those.** -/
theorem decode_eq_ok : decode text = .ok bytes ↔ text = (symbols bytes).map byteOf := by
  constructor
  · intro h
    obtain ⟨_, -, h⟩ := bind_eq_ok.1 h
    exact eq_of_groups h
  · rintro rfl
    exact decode_symbols bytes

/-- And so is a text. -/
theorem decode_encode_eq_ok {s : String} : decode (Utf8.encode s) = .ok bytes ↔ s = encode bytes := by
  rw [decode_eq_ok, ← encode_encode]
  exact ⟨Utf8.encode_injective, congrArg Utf8.encode⟩

end MapDocument.Base64
