import Mathlib.Data.Nat.Sqrt
import MapDocument.Proofs.FloatingPoint.NonNegative
import MapDocument.Proofs.FloatingPoint.Order
/-!
# Floating point — operations that keep the order

Rounding is monotone: of two quotients the greater is not rounded to the lesser number,
neither where the exponent changes nor where numbers end and infinity begins. So the roots
of numbers without a sign are in the order of the numbers, and a number without a sign is
not made less by a factor of at least one or by a term without a sign, however these round.
-/

namespace MapDocument

/-! ## Roots of natural numbers -/

/-- The digits that are found make up the root, if there are enough of them. -/
theorem floorSqrtBits_bounds {pairs n : Nat} (h : n < Nat.pow 4 pairs) :
    floorSqrtBits pairs n * floorSqrtBits pairs n ≤ n ∧
      n < (floorSqrtBits pairs n + 1) * (floorSqrtBits pairs n + 1) := by
  induction pairs generalizing n with
  | zero =>
    have hone : Nat.pow 4 0 = 1 := rfl
    have hzero : n = 0 := by omega
    rw [hzero]
    decide
  | succ pairs ih =>
    have hfour : Nat.pow 4 (pairs + 1) = Nat.pow 4 pairs * 4 := rfl
    obtain ⟨hle, hlt⟩ := ih (n := n / 4) (by omega)
    unfold floorSqrtBits
    generalize floorSqrtBits pairs (n / 4) = root at hle hlt
    -- the next digit doubles the root and may add one
    have hdouble : 2 * root * (2 * root) = 4 * (root * root) := Nat.mul_mul_mul_comm 2 root 2 root
    have hnext : (2 * root + 1 + 1) * (2 * root + 1 + 1) = 4 * ((root + 1) * (root + 1)) :=
      Nat.mul_mul_mul_comm 2 (root + 1) 2 (root + 1)
    by_cases hdigit : (2 * root + 1) * (2 * root + 1) ≤ n
    · simp only [if_pos hdigit]
      exact ⟨hdigit, by omega⟩
    · simp only [if_neg hdigit]
      exact ⟨by omega, Nat.lt_of_not_le hdigit⟩

/-- **Digit by digit the root of a natural number is found.** -/
theorem floorSqrt_eq_sqrt (n : Nat) : floorSqrt n = Nat.sqrt n := by
  refine Nat.eq_sqrt.2 (floorSqrtBits_bounds ?_)
  have hpow : Nat.pow 4 (n.log2 / 2 + 1) = Nat.pow 2 (2 * (n.log2 / 2 + 1)) :=
    (Nat.pow_mul 2 2 (n.log2 / 2 + 1)).symm
  rw [hpow]
  have hlt : n < Nat.pow 2 (n.log2 + 1) := Nat.lt_log2_self
  exact Nat.lt_of_lt_of_le hlt (Nat.pow_le_pow_right (by decide) (by omega))

/-- Twice the root, cut down to an even number and made odd if something was cut off. -/
def oddRoot (square : Nat) : Nat :=
  if floorSqrt square * floorSqrt square = square then 2 * floorSqrt square
  else 2 * floorSqrt square + 1

theorem oddRoot_mono {m n : Nat} (h : m ≤ n) : oddRoot m ≤ oddRoot n := by
  have hroot : Nat.sqrt m ≤ Nat.sqrt n := Nat.sqrt_le_sqrt h
  have hm : Nat.sqrt m * Nat.sqrt m ≤ m := Nat.sqrt_le m
  unfold oddRoot
  rw [floorSqrt_eq_sqrt, floorSqrt_eq_sqrt]
  rcases Nat.lt_or_eq_of_le hroot with hlt | heq
  · split <;> split <;> omega
  · -- of one root, if something is cut off the first it is cut off the second
    rw [← heq]
    split <;> split <;> omega

namespace FloatFormat

variable {F : FloatFormat} {m n d : Nat}

/-! ## Rounding -/

theorem le_roundQuotient (n d : Nat) : n / d ≤ roundQuotient n d := by
  simp only [roundQuotient]
  split
  · exact Nat.le_succ _
  · exact Nat.le_refl _

theorem roundQuotient_le (n d : Nat) : roundQuotient n d ≤ n / d + 1 := by
  simp only [roundQuotient]
  split
  · exact Nat.le_refl _
  · exact Nat.le_succ _

theorem roundQuotient_mono (h : m ≤ n) : roundQuotient m d ≤ roundQuotient n d := by
  have hle : m / d ≤ n / d := Nat.div_le_div_right h
  rcases Nat.lt_or_eq_of_le hle with hlt | heq
  · exact Nat.le_trans (roundQuotient_le m d) (Nat.le_trans hlt (le_roundQuotient n d))
  · -- of one whole part, the greater rest is rounded up if the lesser is
    have hm := Nat.div_add_mod m d
    have hn := Nat.div_add_mod n d
    simp only [roundQuotient]
    rw [heq] at hm ⊢
    split <;> split <;> omega

theorem log2_mono (h : m ≤ n) : m.log2 ≤ n.log2 := by
  by_cases hzero : m = 0
  · rw [hzero, Nat.log2_zero]
    exact Nat.zero_le _
  · exact (Nat.le_log2 (by omega)).2 (Nat.le_trans (Nat.log2_self_le hzero) h)

/-- **Rounding is monotone**, over a change of the exponent and into infinity too. -/
theorem nearest_mono (h : m ≤ n) : F.nearest m d ≤ F.nearest n d := by
  have hquotient : m / d ≤ n / d := Nat.div_le_div_right h
  have hshift : (m / d).log2 - F.fractionBits ≤ (n / d).log2 - F.fractionBits :=
    Nat.sub_le_sub_right (log2_mono hquotient) _
  simp only [nearest]
  refine Nat.le_min.2 ⟨Nat.le_trans (Nat.min_le_left _ _) ?_, Nat.min_le_right _ _⟩
  generalize hs : (m / d).log2 - F.fractionBits = s at hshift ⊢
  generalize ht : (n / d).log2 - F.fractionBits = t at hshift ⊢
  rcases Nat.lt_or_eq_of_le hshift with hlt | rfl
  · -- the first ends where its exponent does, and the leading bit of the second is beyond that
    have htop : m / (d * Nat.pow 2 s) < Nat.pow 2 F.fractionBits * 2 := by
      rw [← Nat.div_div_eq_div_mul]
      exact (significand_bounds hs).1
    have hlead : Nat.pow 2 F.fractionBits ≤ n / (d * Nat.pow 2 t) := by
      rw [← Nat.div_div_eq_div_mul]
      exact (significand_bounds ht).2 (by omega)
    have hround := roundQuotient_le m (d * Nat.pow 2 s)
    have hround' := le_roundQuotient n (d * Nat.pow 2 t)
    have hstep : (s + 1) * Nat.pow 2 F.fractionBits ≤ t * Nat.pow 2 F.fractionBits :=
      Nat.mul_le_mul_right _ hlt
    rw [Nat.succ_mul] at hstep
    omega
  · exact Nat.add_le_add_left (roundQuotient_mono h) _

end FloatFormat

namespace FloatingPoint

variable {F : FloatFormat} {x y : FloatingPoint F} {negative : Bool}

open FloatFormat (infinityCode_lt nearest_mono two_pow_pos units_le_units)

/-! ## Numbers without a sign -/

/-- The code of what is rounded. -/
theorem code_ofUnits (n d : Nat) :
    (ofUnits negative n d : FloatingPoint F).code = F.nearest n d :=
  code_ofCode (Nat.lt_of_le_of_lt (Nat.min_le_right _ _) infinityCode_lt)

namespace NonNegative

/-- Without signs the codes are in the order of the numbers. -/
theorem le_iff (hx : x.NonNegative) (hy : y.NonNegative) :
    x.le y = true ↔ x.code ≤ y.code := by
  simp [le, position, hx.number, hx.unsigned, hy.number, hy.unsigned]

/-- Zero and infinity are their own roots. -/
theorem sqrt_eq_self (h : x.NonNegative) (hends : x.code = 0 ∨ x.code = F.infinityCode) :
    x.sqrt = x := by
  rcases hends with hzero | hinfinite
  · simp [FloatingPoint.sqrt, h.number, isZero, hzero]
  · simp [FloatingPoint.sqrt, h.number, h.unsigned, isInfinite, hinfinite]

/-- The root of any other number is rounded. -/
theorem sqrt_eq_ofUnits (h : x.NonNegative) (hzero : x.code ≠ 0)
    (hinfinite : x.code ≠ F.infinityCode) :
    x.sqrt = ofUnits false (oddRoot (4 * (x.units * F.unitsPerOne))) 4 := by
  simp [FloatingPoint.sqrt, h.number, h.unsigned, isZero, hzero, isInfinite, hinfinite, oddRoot]

/-- **The root of a greater number is not less.** -/
theorem sqrt_le_sqrt (hx : x.NonNegative) (hy : y.NonNegative) (h : x.le y = true) :
    x.sqrt.le y.sqrt = true := by
  have hcode : x.code ≤ y.code := (hx.le_iff hy).1 h
  have hnumber : y.code ≤ F.infinityCode := code_le_infinityCode hy.number
  refine (hx.sqrt.le_iff hy.sqrt).2 ?_
  by_cases hzero : x.code = 0
  · rw [hx.sqrt_eq_self (.inl hzero), hzero]
    exact Nat.zero_le _
  by_cases hinfinite : y.code = F.infinityCode
  · rw [hy.sqrt_eq_self (.inr hinfinite), hinfinite]
    exact code_le_infinityCode hx.sqrt.number
  · -- neither is at an end of the numbers, so both roots are rounded
    have hunits : x.units ≤ y.units := units_le_units.2 hcode
    rw [hx.sqrt_eq_ofUnits hzero (by omega), hy.sqrt_eq_ofUnits (by omega) hinfinite,
      code_ofUnits, code_ofUnits]
    exact nearest_mono (oddRoot_mono (Nat.mul_le_mul_left 4 (Nat.mul_le_mul_right _ hunits)))

/-- What a factor of at least one makes of a number that is not infinite is rounded. -/
theorem mul_eq (hx : x.NonNegative) (hy : y.NonNegative) (hfinite : y.isFinite = true)
    (hone : F.unitsPerOne ≤ y.units) :
    x * y = if x.isInfinite then x else ofUnits false (x.units * y.units) F.unitsPerOne := by
  have hinfinity : y.code < F.infinityCode := of_decide_eq_true hfinite
  have hzero : y.isZero = false := by
    refine decide_eq_false fun hcode => ?_
    have hpos : 0 < F.unitsPerOne := two_pow_pos _
    rw [units, hcode, FloatFormat.units_zero] at hone
    omega
  change x.mul y = _
  simp only [FloatingPoint.mul, hx.number, hy.number, hx.unsigned, hy.unsigned, hzero,
    (isFinite_iff.1 hfinite).2, bne_self_eq_false, Bool.or_false, Bool.false_eq_true, if_false]
  split
  · rename_i hinfinite
    have hcode : x.code = F.infinityCode := of_decide_eq_true hinfinite
    have hnonzero : x.isZero = false := decide_eq_false (by omega)
    rw [hnonzero, if_neg Bool.false_ne_true, ← hcode, ← hx.unsigned, ofCode_code]
  · rfl

theorem mul (hx : x.NonNegative) (hy : y.NonNegative) (hfinite : y.isFinite = true)
    (hone : F.unitsPerOne ≤ y.units) : (x * y).NonNegative := by
  rw [mul_eq hx hy hfinite hone]
  split
  · exact hx
  · exact nonNegative_ofUnits _ _

/-- **A factor of at least one makes no number less.** -/
theorem le_mul (hx : x.NonNegative) (hy : y.NonNegative) (hfinite : y.isFinite = true)
    (hone : F.unitsPerOne ≤ y.units) : x.le (x * y) = true := by
  rw [hx.le_iff (hx.mul hy hfinite hone), mul_eq hx hy hfinite hone]
  split
  · exact Nat.le_refl _
  · rw [code_ofUnits, code_eq_nearest hx.number (two_pow_pos F.unitExponent)]
    exact nearest_mono (Nat.mul_le_mul_left _ hone)

/-- **A term without a sign makes no number less.** -/
theorem le_add (hx : x.NonNegative) (hy : y.NonNegative) : x.le (x + y) = true := by
  refine (hx.le_iff (hx.add hy)).2 ?_
  change x.code ≤ (x.add y).code
  simp only [FloatingPoint.add, hx.number, hy.number, hx.unsigned, hy.unsigned, hx.signedUnits_eq,
    hy.signedUnits_eq, bne_self_eq_false, Bool.and_false, Bool.or_false, Bool.false_eq_true,
    if_false]
  split
  · exact Nat.le_refl _
  split
  · rename_i hinfinite
    have hcode : y.code = F.infinityCode := of_decide_eq_true hinfinite
    rw [hcode]
    exact code_le_infinityCode hx.number
  split
  · rename_i hsum
    have hvalue : x.signedUnits = 0 := by
      rw [hx.signedUnits_eq]
      omega
    rw [signedUnits_eq_zero.1 hvalue]
    exact Nat.zero_le _
  · have hnatAbs : ((x.units : Int) + y.units).natAbs = x.units + y.units := by omega
    rw [code_ofUnits, hnatAbs, code_eq_nearest hx.number Nat.one_pos, Nat.mul_one]
    exact nearest_mono (Nat.le_add_right _ _)

end NonNegative

end FloatingPoint

end MapDocument
