import MapDocument.FloatingPoint.Basic
/-!
# Floating point — conversions that lose nothing

A whole number of units is exact in a format if what is left after dividing
out a power of two fits in a significand. Rounding finds such a number
itself: its code gives the units back. The units of every four-byte number
are exact in the eight-byte format too, so widening a finite number and
narrowing it again gives the same pattern.
-/

namespace MapDocument

namespace FloatFormat

variable {F : FloatFormat}

theorem two_pow_pos (n : Nat) : 0 < Nat.pow 2 n := Nat.pow_pos (by decide)

theorem two_pow_add (m n : Nat) : Nat.pow 2 (m + n) = Nat.pow 2 m * Nat.pow 2 n :=
  Nat.pow_add 2 m n

/-- The number of codes below infinity is less than that of all codes. -/
theorem infinityCode_lt : F.infinityCode < Nat.pow 2 F.magnitudeBits := by
  have hsplit : Nat.pow 2 F.magnitudeBits = Nat.pow 2 F.exponentBits * Nat.pow 2 F.fractionBits :=
    two_pow_add F.exponentBits F.fractionBits
  rw [hsplit, infinityCode]
  exact Nat.mul_lt_mul_of_pos_right (Nat.sub_lt (two_pow_pos _) Nat.one_pos) (two_pow_pos _)

/-! ## Exact magnitudes -/

/-- A whole number that a significand of the format can count, up to a power of two. -/
def IsExact (F : FloatFormat) (u : Nat) : Prop :=
  ∃ s k, s < Nat.pow 2 (F.fractionBits + 1) ∧ u = s * Nat.pow 2 k

/-- An exact number is exact in any format with significands as long, in finer units too. -/
theorem IsExact.mul_two_pow {G : FloatFormat} {u : Nat} (h : F.IsExact u)
    (hfraction : F.fractionBits ≤ G.fractionBits) (k : Nat) : G.IsExact (u * Nat.pow 2 k) := by
  obtain ⟨s, l, hs, rfl⟩ := h
  refine ⟨s, l + k, Nat.lt_of_lt_of_le hs (Nat.pow_le_pow_right (by decide) (by omega)), ?_⟩
  rw [two_pow_add, ← Nat.mul_assoc]

/-- A number is no longer than its significand and the shift allow. -/
theorem log2_sub_le {s k : Nat} (hs : s < Nat.pow 2 (F.fractionBits + 1))
    (hne : s * Nat.pow 2 k ≠ 0) : (s * Nat.pow 2 k).log2 - F.fractionBits ≤ k := by
  have hlt : s * Nat.pow 2 k < Nat.pow 2 (F.fractionBits + 1 + k) := by
    rw [two_pow_add (F.fractionBits + 1)]
    exact Nat.mul_lt_mul_of_pos_right hs (two_pow_pos k)
  have hlog : (s * Nat.pow 2 k).log2 < F.fractionBits + 1 + k := (Nat.log2_lt hne).2 hlt
  omega

/-- What is left after the shift is a significand, and has its leading bit set if
there was a shift. -/
theorem significand_bounds {u shift : Nat} (hshift : u.log2 - F.fractionBits = shift) :
    u / Nat.pow 2 shift < Nat.pow 2 (F.fractionBits + 1) ∧
      (0 < shift → Nat.pow 2 F.fractionBits ≤ u / Nat.pow 2 shift) := by
  refine ⟨(Nat.div_lt_iff_lt_mul (two_pow_pos shift)).2 ?_, fun hpos => ?_⟩
  · have hlt : u < Nat.pow 2 (u.log2 + 1) := Nat.lt_log2_self
    rw [← two_pow_add]
    exact Nat.lt_of_lt_of_le hlt (Nat.pow_le_pow_right (by decide) (by omega))
  · have hne : u ≠ 0 := by
      rintro rfl
      rw [Nat.log2_zero] at hshift
      omega
    have hge : Nat.pow 2 u.log2 ≤ u := Nat.log2_self_le hne
    have hlog : u.log2 = F.fractionBits + shift := by omega
    rw [hlog, two_pow_add] at hge
    exact (Nat.le_div_iff_mul_le (two_pow_pos shift)).2 hge

/-- The significand of an exact number and what it is shifted by: where it is
shifted at all, its leading bit is set. -/
theorem IsExact.split {u : Nat} (h : F.IsExact u) :
    ∃ q, u = q * Nat.pow 2 (u.log2 - F.fractionBits) ∧ q < Nat.pow 2 (F.fractionBits + 1) ∧
      (0 < u.log2 - F.fractionBits → Nat.pow 2 F.fractionBits ≤ q) := by
  obtain ⟨s, k, hs, hu⟩ := h
  by_cases hzero : u = 0
  · refine ⟨0, ?_, two_pow_pos _, fun h => ?_⟩
    · rw [hzero, Nat.zero_mul]
    · rw [hzero, Nat.log2_zero, Nat.zero_sub] at h
      exact absurd h (Nat.lt_irrefl 0)
  · -- what `k` has more than the shift goes into the significand
    have hle : u.log2 - F.fractionBits ≤ k := by
      rw [hu] at hzero ⊢
      exact log2_sub_le hs hzero
    generalize hshift : u.log2 - F.fractionBits = shift at hle ⊢
    have hk : Nat.pow 2 k = Nat.pow 2 (k - shift) * Nat.pow 2 shift := by
      rw [← two_pow_add, Nat.sub_add_cancel hle]
    have hq : u = s * Nat.pow 2 (k - shift) * Nat.pow 2 shift := by
      rw [hu, hk, Nat.mul_assoc]
    have hdiv : u / Nat.pow 2 shift = s * Nat.pow 2 (k - shift) :=
      Nat.div_eq_of_eq_mul_left (two_pow_pos shift) hq
    exact ⟨_, hq, hdiv ▸ significand_bounds hshift⟩

/-- The units of a code: the significand it has, shifted as far as it is shifted. -/
theorem units_add {shift q : Nat} (hq : q < Nat.pow 2 (F.fractionBits + 1))
    (hlead : 0 < shift → Nat.pow 2 F.fractionBits ≤ q) :
    F.units (shift * Nat.pow 2 F.fractionBits + q) = q * Nat.pow 2 shift := by
  have hsucc : Nat.pow 2 (F.fractionBits + 1) = Nat.pow 2 F.fractionBits * 2 := rfl
  have hpos := two_pow_pos F.fractionBits
  unfold units
  generalize Nat.pow 2 F.fractionBits = p at *
  by_cases hlt : q < p
  · have hshift : shift = 0 := by
      refine Nat.eq_zero_of_not_pos fun h => ?_
      have := hlead h
      omega
    rw [hshift, Nat.zero_mul, Nat.zero_add, Nat.div_eq_of_lt hlt, Nat.mod_eq_of_lt hlt]
    exact (Nat.mul_one q).symm
  · obtain ⟨r, rfl⟩ : ∃ r, q = p + r := ⟨q - p, by omega⟩
    have hr : r < p := by omega
    have hcode : shift * p + (p + r) = r + p * (shift + 1) := by
      rw [Nat.mul_add, Nat.mul_comm p shift]
      omega
    have hdiv : (r + p * (shift + 1)) / p = shift + 1 := by
      rw [Nat.add_mul_div_left _ _ hpos, Nat.div_eq_of_lt hr, Nat.zero_add]
    have hmod : (r + p * (shift + 1)) % p = r := by
      rw [Nat.add_mul_mod_self_left, Nat.mod_eq_of_lt hr]
    simp only [hcode, hdiv, hmod]
    rw [if_neg (Nat.succ_ne_zero shift), Nat.add_sub_cancel]

/-- A quotient without remainder is not rounded. -/
theorem roundQuotient_mul {q d : Nat} (hd : 0 < d) : roundQuotient (q * d) d = q := by
  unfold roundQuotient
  rw [Nat.mul_div_cancel q hd, Nat.mul_mod_left]
  exact if_neg (by omega)

/-- The code nearest to an exact number, counted in any fraction of a unit. -/
theorem IsExact.nearest_mul {u : Nat} (h : F.IsExact u) :
    ∃ shift q, u = q * Nat.pow 2 shift ∧ q < Nat.pow 2 (F.fractionBits + 1) ∧
      (0 < shift → Nat.pow 2 F.fractionBits ≤ q) ∧ shift = u.log2 - F.fractionBits ∧
      ∀ d, 0 < d →
        F.nearest (u * d) d = min (shift * Nat.pow 2 F.fractionBits + q) F.infinityCode := by
  obtain ⟨q, hu, hq, hlead⟩ := h.split
  refine ⟨_, q, hu, hq, hlead, rfl, fun d hd => ?_⟩
  unfold nearest
  rw [Nat.mul_div_cancel u hd]
  have hround : roundQuotient (u * d) (d * Nat.pow 2 (u.log2 - F.fractionBits)) = q := by
    have hmul : u * d = q * (d * Nat.pow 2 (u.log2 - F.fractionBits)) := by
      rw [Nat.mul_left_comm q d, ← hu, Nat.mul_comm]
    rw [hmul]
    exact roundQuotient_mul (Nat.mul_pos hd (two_pow_pos _))
  simp only [hround]

/-- **An exact number that is not too great is its own nearest**: the code is
finite and has as many units. -/
theorem IsExact.units_nearest {u d m : Nat} (h : F.IsExact u) (hd : 0 < d)
    (hu : u < Nat.pow 2 (F.fractionBits + 1 + m)) (hm : m + 2 < Nat.pow 2 F.exponentBits) :
    F.nearest (u * d) d < F.infinityCode ∧ F.units (F.nearest (u * d) d) = u := by
  obtain ⟨shift, q, hsplit, hq, hlead, hshift, hnearest⟩ := h.nearest_mul
  have hle : shift ≤ m := by
    by_cases hzero : u = 0
    · rw [hzero, Nat.log2_zero] at hshift
      omega
    · have hlog : u.log2 < F.fractionBits + 1 + m := (Nat.log2_lt hzero).2 hu
      omega
  have hfinite : shift * Nat.pow 2 F.fractionBits + q < F.infinityCode := by
    have hsucc : Nat.pow 2 (F.fractionBits + 1) = Nat.pow 2 F.fractionBits * 2 := rfl
    have hmul : shift * Nat.pow 2 F.fractionBits ≤ m * Nat.pow 2 F.fractionBits :=
      Nat.mul_le_mul_right _ hle
    have htop : (m + 2) * Nat.pow 2 F.fractionBits ≤ F.infinityCode :=
      Nat.mul_le_mul_right _ (by omega)
    rw [Nat.add_mul] at htop
    omega
  rw [hnearest d hd, Nat.min_eq_left (Nat.le_of_lt hfinite)]
  exact ⟨hfinite, by rw [units_add hq hlead, ← hsplit]⟩

/-- Every code has a significand and a shift. -/
theorem code_split (code : Nat) :
    ∃ shift q, code = shift * Nat.pow 2 F.fractionBits + q ∧
      q < Nat.pow 2 (F.fractionBits + 1) ∧ (0 < shift → Nat.pow 2 F.fractionBits ≤ q) ∧
      F.units code = q * Nat.pow 2 shift := by
  have hsucc : Nat.pow 2 (F.fractionBits + 1) = Nat.pow 2 F.fractionBits * 2 := rfl
  have hmod : code % Nat.pow 2 F.fractionBits < Nat.pow 2 F.fractionBits :=
    Nat.mod_lt _ (two_pow_pos _)
  have hcode := Nat.div_add_mod' code (Nat.pow 2 F.fractionBits)
  -- codes below the first leading bit are not shifted, the others by one less than their exponent
  have hsplit : ∃ shift q, code = shift * Nat.pow 2 F.fractionBits + q ∧
      q < Nat.pow 2 (F.fractionBits + 1) ∧ (0 < shift → Nat.pow 2 F.fractionBits ≤ q) := by
    cases hexp : code / Nat.pow 2 F.fractionBits with
    | zero =>
      rw [hexp] at hcode
      exact ⟨0, code, by omega, by omega, fun h => absurd h (Nat.lt_irrefl 0)⟩
    | succ shift =>
      rw [hexp, Nat.succ_mul] at hcode
      exact ⟨shift, Nat.pow 2 F.fractionBits + code % Nat.pow 2 F.fractionBits, by omega,
        by omega, fun _ => Nat.le_add_right _ _⟩
  obtain ⟨shift, q, rfl, hq, hlead⟩ := hsplit
  exact ⟨shift, q, rfl, hq, hlead, units_add hq hlead⟩

/-- The units of a code are exact. -/
theorem isExact_units (code : Nat) : F.IsExact (F.units code) := by
  obtain ⟨shift, q, -, hq, -, hunits⟩ := F.code_split code
  exact ⟨q, shift, hq, hunits⟩

/-- The shift of a number is read off the number. -/
theorem log2_mul_two_pow {shift q : Nat} (hq : q < Nat.pow 2 (F.fractionBits + 1))
    (hlead : 0 < shift → Nat.pow 2 F.fractionBits ≤ q) :
    (q * Nat.pow 2 shift).log2 - F.fractionBits = shift := by
  by_cases hzero : q = 0
  · have hshift : shift = 0 := by
      refine Nat.eq_zero_of_not_pos fun h => ?_
      have hpos := two_pow_pos F.fractionBits
      have := hlead h
      omega
    rw [hzero, hshift, Nat.zero_mul, Nat.log2_zero, Nat.zero_sub]
  · have hne : q * Nat.pow 2 shift ≠ 0 :=
      Nat.mul_ne_zero hzero (Nat.ne_of_gt (two_pow_pos shift))
    have hupper : (q * Nat.pow 2 shift).log2 < F.fractionBits + 1 + shift := by
      refine (Nat.log2_lt hne).2 ?_
      exact Nat.lt_of_lt_of_eq (Nat.mul_lt_mul_of_pos_right hq (two_pow_pos shift))
        (two_pow_add _ shift).symm
    have hlower : 0 < shift → F.fractionBits + shift ≤ (q * Nat.pow 2 shift).log2 := by
      intro h
      refine (Nat.le_log2 hne).2 ?_
      exact Nat.le_trans (Nat.le_of_eq (two_pow_add _ shift)) (Nat.mul_le_mul_right _ (hlead h))
    omega

/-- **The code nearest to the units of a finite code is that code.** -/
theorem nearest_units {code d : Nat} (hcode : code ≤ F.infinityCode) (hd : 0 < d) :
    F.nearest (F.units code * d) d = code := by
  obtain ⟨shift, q, hsplit, hq, hlead, hunits⟩ := F.code_split code
  obtain ⟨shift', q', hunits', -, -, hshift, hnearest⟩ := (F.isExact_units code).nearest_mul
  have hsame : shift' = shift := by rw [hshift, hunits, log2_mul_two_pow hq hlead]
  rw [hsame, hunits] at hunits'
  have hsignificand : q = q' := Nat.eq_of_mul_eq_mul_right (two_pow_pos shift) hunits'
  rw [hnearest d hd, hsame, ← hsignificand, ← hsplit, Nat.min_eq_left hcode]

/-- **The units grow with the code.** -/
theorem units_lt_units {a b : Nat} (h : a < b) : F.units a < F.units b := by
  obtain ⟨shift, q, ha, hq, hlead, hunits⟩ := F.code_split a
  obtain ⟨shift', q', hb, hq', hlead', hunits'⟩ := F.code_split b
  have hsucc : Nat.pow 2 (F.fractionBits + 1) = Nat.pow 2 F.fractionBits * 2 := rfl
  have hpos := two_pow_pos F.fractionBits
  rw [ha, hb] at h
  rw [hunits, hunits']
  rcases Nat.lt_trichotomy shift shift' with hlt | rfl | hgt
  · -- the leading bit of the second is worth more than all of the first
    have hlead : Nat.pow 2 F.fractionBits ≤ q' := hlead' (by omega)
    calc
      q * Nat.pow 2 shift < Nat.pow 2 (F.fractionBits + 1) * Nat.pow 2 shift :=
        Nat.mul_lt_mul_of_pos_right hq (two_pow_pos shift)
      _ = Nat.pow 2 F.fractionBits * Nat.pow 2 (shift + 1) := by
        rw [← two_pow_add, ← two_pow_add]
        congr 1
        omega
      _ ≤ q' * Nat.pow 2 shift' :=
        Nat.mul_le_mul hlead (Nat.pow_le_pow_right (by decide) hlt)
  · exact Nat.mul_lt_mul_of_pos_right (by omega) (two_pow_pos shift)
  · -- a greater shift would make for a greater code
    have hlead : Nat.pow 2 F.fractionBits ≤ q := hlead (by omega)
    have hstep : (shift' + 1) * Nat.pow 2 F.fractionBits ≤ shift * Nat.pow 2 F.fractionBits :=
      Nat.mul_le_mul_right _ hgt
    rw [Nat.succ_mul] at hstep
    omega

theorem units_zero : F.units 0 = 0 := by simp [units]

theorem units_le_units {a b : Nat} : F.units a ≤ F.units b ↔ a ≤ b := by
  constructor
  · intro h
    refine Nat.not_lt.1 fun hgt => ?_
    have hunits := F.units_lt_units hgt
    omega
  · intro h
    rcases Nat.lt_or_eq_of_le h with hlt | rfl
    · exact Nat.le_of_lt (F.units_lt_units hlt)
    · exact Nat.le_refl _

/-- The units of a finite code are less than one step past the greatest of them. -/
theorem units_lt {code : Nat} (h : code < F.infinityCode) :
    F.units code < Nat.pow 2 (F.fractionBits + 1 + (Nat.pow 2 F.exponentBits - 2)) := by
  obtain ⟨shift, q, hsplit, hq, hlead, hunits⟩ := F.code_split code
  have hshift : shift < Nat.pow 2 F.exponentBits - 1 := by
    rw [hsplit, infinityCode] at h
    exact Nat.lt_of_mul_lt_mul_right (Nat.lt_of_le_of_lt (Nat.le_add_right _ q) h)
  rw [hunits, two_pow_add (F.fractionBits + 1)]
  exact Nat.mul_lt_mul_of_lt_of_le hq (Nat.pow_le_pow_right (by decide) (by omega))
    (two_pow_pos _)

end FloatFormat

namespace FloatingPoint

variable {F : FloatFormat}

open FloatFormat (two_pow_pos two_pow_add infinityCode_lt)

/-! ## Patterns and their parts -/

theorem code_lt (x : FloatingPoint F) : x.code < Nat.pow 2 F.magnitudeBits :=
  Nat.mod_lt _ (two_pow_pos _)

/-- The bits of a pattern that is put together. -/
theorem toNat_ofCode {negative : Bool} {code : Nat} (h : code < Nat.pow 2 F.magnitudeBits) :
    (ofCode negative code : FloatingPoint F).bits.toNat =
      if negative then Nat.pow 2 F.magnitudeBits + code else code := by
  have hwidth : Nat.pow 2 F.width = Nat.pow 2 F.magnitudeBits * 2 := rfl
  have hbits : (ofCode negative code : FloatingPoint F).bits.toNat =
      (if negative then Nat.pow 2 F.magnitudeBits + code else code) % Nat.pow 2 F.width :=
    BitVec.toNat_ofNat _ _
  rw [hbits]
  refine Nat.mod_eq_of_lt ?_
  split <;> omega

/-- The code of a pattern that is put together. -/
theorem code_ofCode {negative : Bool} {code : Nat} (h : code < Nat.pow 2 F.magnitudeBits) :
    (ofCode negative code : FloatingPoint F).code = code := by
  rw [FloatingPoint.code, toNat_ofCode h]
  split
  · rw [Nat.add_mod_left, Nat.mod_eq_of_lt h]
  · exact Nat.mod_eq_of_lt h

/-- And its sign. -/
theorem isNegative_ofCode {negative : Bool} {code : Nat} (h : code < Nat.pow 2 F.magnitudeBits) :
    (ofCode negative code : FloatingPoint F).isNegative = negative := by
  rw [isNegative, toNat_ofCode h]
  cases negative
  · exact decide_eq_false (Nat.not_le_of_lt h)
  · exact decide_eq_true (Nat.le_add_right _ _)

/-- A pattern is put together again from its parts. -/
theorem ofCode_code (x : FloatingPoint F) : ofCode x.isNegative x.code = x := by
  have hwidth : Nat.pow 2 F.width = Nat.pow 2 F.magnitudeBits * 2 := rfl
  have hlt : x.bits.toNat < Nat.pow 2 F.width := x.bits.isLt
  have hbits : (ofCode x.isNegative x.code : FloatingPoint F).bits.toNat = x.bits.toNat := by
    rw [toNat_ofCode x.code_lt]
    unfold isNegative FloatingPoint.code
    by_cases hle : Nat.pow 2 F.magnitudeBits ≤ x.bits.toNat
    · rw [if_pos (decide_eq_true hle), Nat.mod_eq_sub_mod hle, Nat.mod_eq_of_lt (by omega)]
      omega
    · rw [if_neg (by simpa using hle), Nat.mod_eq_of_lt (Nat.lt_of_not_le hle)]
  cases x
  exact congrArg FloatingPoint.mk (BitVec.eq_of_toNat_eq hbits)

/-- Finite numbers are rounded where they are converted. -/
theorem convert_of_isFinite {G : FloatFormat} {x : FloatingPoint F} (h : x.isFinite = true) :
    (x.convert : FloatingPoint G) =
      ofUnits x.isNegative (x.units * G.unitsPerOne) F.unitsPerOne := by
  have hlt : x.code < F.infinityCode := of_decide_eq_true h
  have hnan : x.isNaN = false := decide_eq_false (by omega)
  have hinf : x.isInfinite = false := decide_eq_false (by omega)
  rw [convert, hnan, hinf]
  rfl

/-- A number of finite code has the units of that code. -/
theorem isFinite_ofCode {negative : Bool} {code : Nat} (h : code < F.infinityCode) :
    (ofCode negative code : FloatingPoint F).isFinite = true :=
  decide_eq_true (by rwa [code_ofCode (Nat.lt_trans h infinityCode_lt)])

/-! ## Widening and narrowing -/

section Widening

variable {G : FloatFormat} {x : FloatingPoint F} {k m : Nat}

/-- A unit of a format in units of a finer one. -/
theorem unitsPerOne_eq (hunit : G.unitExponent = k + F.unitExponent) :
    G.unitsPerOne = Nat.pow 2 k * F.unitsPerOne := by
  rw [FloatFormat.unitsPerOne, hunit]
  exact two_pow_add k F.unitExponent

/-- **A finite number is the same after widening and narrowing**, sign of zero
and all, if the wider format has a finer unit and greater numbers. -/
theorem convert_convert (hfraction : F.fractionBits ≤ G.fractionBits)
    (hunit : G.unitExponent = k + F.unitExponent)
    (hrange : F.fractionBits + 1 + (Nat.pow 2 F.exponentBits - 2) + k ≤ G.fractionBits + 1 + m)
    (hm : m + 2 < Nat.pow 2 G.exponentBits) (h : x.isFinite = true) :
    ((x.convert : FloatingPoint G).convert : FloatingPoint F) = x := by
  have hcode : x.code < F.infinityCode := of_decide_eq_true h
  have hone : 0 < F.unitsPerOne := two_pow_pos _
  -- widening is exact, so the wide code has the same units
  have hexact : G.IsExact (x.units * Nat.pow 2 k) := (F.isExact_units x.code).mul_two_pow hfraction k
  have hbound : x.units * Nat.pow 2 k < Nat.pow 2 (G.fractionBits + 1 + m) := by
    have hlt := Nat.mul_lt_mul_of_pos_right (FloatFormat.units_lt hcode) (two_pow_pos k)
    rw [← two_pow_add] at hlt
    exact Nat.lt_of_lt_of_le hlt (Nat.pow_le_pow_right (by decide) hrange)
  obtain ⟨hfinite, hunits⟩ := hexact.units_nearest hone hbound hm
  have hwide : (x.convert : FloatingPoint G) =
      ofCode x.isNegative (G.nearest (x.units * Nat.pow 2 k * F.unitsPerOne) F.unitsPerOne) := by
    rw [convert_of_isFinite h, unitsPerOne_eq hunit, ← Nat.mul_assoc, ofUnits]
  generalize G.nearest _ _ = code at *
  -- and these are what narrowing starts from
  have hlt := Nat.lt_trans hfinite infinityCode_lt
  have hnarrow : F.nearest (x.units * G.unitsPerOne) G.unitsPerOne = x.code :=
    FloatFormat.nearest_units (Nat.le_of_lt hcode) (two_pow_pos _)
  rw [hwide, convert_of_isFinite (isFinite_ofCode hfinite), isNegative_ofCode hlt, units,
    code_ofCode hlt, hunits, Nat.mul_assoc, ← unitsPerOne_eq hunit, ofUnits, hnarrow, ofCode_code]

end Widening

/-- Four-byte numbers are the same after widening to eight bytes and narrowing. -/
theorem convert_double_convert {x : Single} (h : x.isFinite = true) :
    ((x.convert : Double).convert : Single) = x :=
  convert_convert (k := 925) (m := 1150) (by decide) (by decide) (by decide) (by decide) h

end FloatingPoint

end MapDocument
