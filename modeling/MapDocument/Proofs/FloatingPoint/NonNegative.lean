import MapDocument.Proofs.FloatingPoint.Exact
/-!
# Floating point — numbers that are not negative

Rounding makes a number of every quotient, if only infinity, and keeps the sign it is
given. So a square is no negative number, and neither are sums of squares and the roots of
these. Differences of finite numbers are numbers too, if not finite ones, and that of a
number and itself is positive zero. A zero that is added changes nothing in any comparison.
-/

namespace MapDocument.FloatingPoint

variable {F : FloatFormat} {x y : FloatingPoint F} {negative : Bool} {code : Nat}

open FloatFormat (infinityCode_lt)

/-- A number without the sign: positive zero, a positive number or positive infinity. -/
structure NonNegative (x : FloatingPoint F) : Prop where
  number : x.isNaN = false
  unsigned : x.isNegative = false

/-! ## What rounding gives -/

theorem isNaN_ofCode (h : code ≤ F.infinityCode) :
    (ofCode negative code : FloatingPoint F).isNaN = false := by
  rw [isNaN, code_ofCode (Nat.lt_of_le_of_lt h infinityCode_lt)]
  exact decide_eq_false (Nat.not_lt.2 h)

/-- **What is rounded is a number.** -/
theorem isNaN_ofUnits (n d : Nat) : (ofUnits negative n d : FloatingPoint F).isNaN = false :=
  isNaN_ofCode (Nat.min_le_right _ _)

theorem code_le_infinityCode (hx : x.isNaN = false) : x.code ≤ F.infinityCode :=
  Nat.not_lt.1 (of_decide_eq_false hx)

/-- The code of a number is the nearest to its units, in whatever fractions these are counted. -/
theorem code_eq_nearest (hx : x.isNaN = false) {d : Nat} (hd : 0 < d) :
    x.code = F.nearest (x.units * d) d :=
  (FloatFormat.nearest_units (code_le_infinityCode hx) hd).symm

theorem nonNegative_ofCode (h : code ≤ F.infinityCode) :
    (ofCode false code : FloatingPoint F).NonNegative where
  number := isNaN_ofCode h
  unsigned := isNegative_ofCode (Nat.lt_of_le_of_lt h infinityCode_lt)

theorem nonNegative_ofUnits (n d : Nat) : (ofUnits false n d : FloatingPoint F).NonNegative :=
  nonNegative_ofCode (Nat.min_le_right _ _)

theorem code_zero : (zero : FloatingPoint F).code = 0 := code_ofCode (FloatFormat.two_pow_pos _)

theorem nonNegative_zero : (zero : FloatingPoint F).NonNegative :=
  nonNegative_ofCode (Nat.zero_le _)

/-- Finite numbers are numbers and not infinite. -/
theorem isFinite_iff : x.isFinite = true ↔ x.isNaN = false ∧ x.isInfinite = false := by
  simp only [isFinite, isNaN, isInfinite, decide_eq_true_eq, decide_eq_false_iff_not]
  omega

namespace NonNegative

/-- Of the two zeros it can be the positive one. -/
theorem eq_zero (h : x.NonNegative) (hzero : x.isZero = true) : x = zero := by
  have hcode : x.code = 0 := of_decide_eq_true hzero
  rw [← ofCode_code x, h.unsigned, hcode, zero]

/-- And if it is none of them it is greater than they are. -/
theorem zero_lt (h : x.NonNegative) (hzero : x.isZero = false) : zero.lt x = true := by
  have hcode : x.code ≠ 0 := of_decide_eq_false hzero
  simp only [lt, position, nonNegative_zero.number, nonNegative_zero.unsigned, h.number,
    h.unsigned, code_zero, Bool.not_false, Bool.true_and, decide_eq_true_eq, if_false,
    Bool.false_eq_true]
  omega

/-! ## Sums, squares and roots -/

/-- Its value is its magnitude. -/
theorem signedUnits_eq (h : x.NonNegative) : x.signedUnits = x.units := by
  rw [signedUnits, h.unsigned]
  rfl

theorem add (h : x.NonNegative) (h' : y.NonNegative) : (x + y).NonNegative := by
  change (FloatingPoint.add x y).NonNegative
  simp only [FloatingPoint.add, h.number, h'.number, h.unsigned, h'.unsigned, h.signedUnits_eq,
    h'.signedUnits_eq, bne_self_eq_false, Bool.and_false, Bool.or_false, Bool.false_eq_true,
    if_false]
  split
  · exact h
  split
  · exact h'
  split
  · exact nonNegative_zero
  · rw [decide_eq_false (by omega)]
    exact nonNegative_ofUnits _ _

/-- A square has no sign, whatever is squared. -/
theorem mul_self (hinf : 0 < F.infinityCode) (hx : x.isNaN = false) : (x * x).NonNegative := by
  change (FloatingPoint.mul x x).NonNegative
  simp only [FloatingPoint.mul, hx, bne_self_eq_false, Bool.or_self, Bool.false_eq_true, if_false]
  split
  · rename_i hinfinite
    have hcode : x.code = F.infinityCode := of_decide_eq_true hinfinite
    have hzero : x.isZero = false := decide_eq_false (by omega)
    rw [hzero]
    exact nonNegative_ofCode (Nat.le_refl _)
  · exact nonNegative_ofUnits _ _

theorem sqrt (h : x.NonNegative) : x.sqrt.NonNegative := by
  simp only [FloatingPoint.sqrt, h.number, h.unsigned, Bool.false_eq_true, if_false]
  split
  · exact h
  split
  · exact h
  · exact nonNegative_ofUnits _ _

end NonNegative

/-! ## What is no number -/

section Spreading

variable (hnan : (nan : FloatingPoint F).isNaN = true)

include hnan

/-- A sum is a number only if both terms are. -/
theorem isNaN_of_add (h : (x + y).isNaN = false) : x.isNaN = false ∧ y.isNaN = false := by
  change (x.add y).isNaN = false at h
  cases hx : x.isNaN <;> cases hy : y.isNaN <;> simp_all [FloatingPoint.add]

/-- And a product only if both factors are. -/
theorem isNaN_of_mul (h : (x * y).isNaN = false) : x.isNaN = false ∧ y.isNaN = false := by
  change (x.mul y).isNaN = false at h
  cases hx : x.isNaN <;> cases hy : y.isNaN <;> simp_all [FloatingPoint.mul]

end Spreading

/-! ## Differences -/

/-- Turning the sign leaves the magnitude. -/
theorem code_neg (x : FloatingPoint F) : x.neg.code = x.code := code_ofCode x.code_lt

theorem isNegative_neg (x : FloatingPoint F) : x.neg.isNegative = !x.isNegative :=
  isNegative_ofCode x.code_lt

theorem signedUnits_neg (x : FloatingPoint F) : x.neg.signedUnits = -x.signedUnits := by
  simp only [signedUnits, units, code_neg, isNegative_neg]
  cases x.isNegative <;> simp

theorem isFinite_neg (x : FloatingPoint F) : x.neg.isFinite = x.isFinite := by
  rw [isFinite, isFinite, code_neg]

/-- Finite numbers are added exactly, and their sum is rounded. -/
theorem add_of_isFinite (hx : x.isFinite = true) (hy : y.isFinite = true) {sum : Int}
    (hsum : x.signedUnits + y.signedUnits = sum) :
    x.add y =
      if sum = 0 then ofCode (x.isNegative && y.isNegative) 0
      else ofUnits (sum < 0) sum.natAbs 1 := by
  rw [isFinite_iff] at hx hy
  simp only [FloatingPoint.add, hx.1, hx.2, hy.1, hy.2, hsum, Bool.or_self, Bool.false_eq_true,
    if_false]

/-- So they are where they are taken from each other. -/
theorem sub_of_isFinite (x : FloatingPoint F) (hy : y.isFinite = true) : x - y = x.add y.neg := by
  change (if y.isNaN then nan else x.add y.neg) = _
  rw [(isFinite_iff.1 hy).1]
  rfl

/-- **A difference of finite numbers is a number**, be it too great to be finite. -/
theorem isNaN_sub (hx : x.isFinite = true) (hy : y.isFinite = true) : (x - y).isNaN = false := by
  rw [sub_of_isFinite x hy, add_of_isFinite hx (by rwa [isFinite_neg]) rfl]
  split
  · exact isNaN_ofCode (Nat.zero_le _)
  · exact isNaN_ofUnits _ _

/-- Nothing is left of a number that is taken from itself, and what is left has no sign. -/
theorem sub_self (hx : x.isFinite = true) : x - x = zero := by
  have hsum : x.signedUnits + x.neg.signedUnits = 0 := by
    rw [signedUnits_neg]
    exact Int.add_right_neg _
  rw [sub_of_isFinite x hx, add_of_isFinite hx (by rwa [isFinite_neg]) hsum, if_pos rfl,
    isNegative_neg, Bool.and_not_self, zero]

/-! ## Zero as a term -/

theorem position_of_code_eq_zero (h : x.code = 0) : x.position = 0 := by
  rw [position, h]
  exact ite_self _

/-- The zeros and nothing else are worth nothing. -/
theorem signedUnits_eq_zero : x.signedUnits = 0 ↔ x.code = 0 := by
  have hzero : F.units 0 = 0 := FloatFormat.units_zero
  have hle : F.units x.code ≤ F.units 0 ↔ x.code ≤ 0 := FloatFormat.units_le_units
  unfold signedUnits units
  split <;> omega

/-- A number that is not zero is what its value is rounded to. -/
theorem ofUnits_signedUnits (hx : x.isNaN = false) (hne : x.signedUnits ≠ 0) :
    ofUnits (x.signedUnits < 0) x.signedUnits.natAbs 1 = x := by
  have habs : x.signedUnits.natAbs = x.units := by
    unfold signedUnits
    split <;> omega
  have hsign : decide (x.signedUnits < 0) = x.isNegative := by
    unfold signedUnits at hne ⊢
    cases hnegative : x.isNegative with
    | true =>
      rw [hnegative, if_pos rfl] at hne
      exact decide_eq_true (by simp only [if_true]; omega)
    | false => exact decide_eq_false (by simp only [Bool.false_eq_true, if_false]; omega)
  have hnearest : x.code = F.nearest (x.units * 1) 1 := code_eq_nearest hx Nat.one_pos
  rw [Nat.mul_one] at hnearest
  rw [hsign, habs, ofUnits, ← hnearest, ofCode_code]

/-- **A zero that is added leaves a number in its place on the line**, though it may turn
the sign of a zero there. -/
theorem position_zero_add (hinf : 0 < F.infinityCode) (hx : x.isNaN = false) :
    (zero + x).isNaN = false ∧ (zero + x).position = x.position := by
  have hfinite : (zero : FloatingPoint F).isFinite = true := isFinite_ofCode hinf
  have hsum : (zero : FloatingPoint F).signedUnits + x.signedUnits = x.signedUnits := by
    rw [signedUnits_eq_zero.2 code_zero, Int.zero_add]
  change (zero.add x).isNaN = false ∧ (zero.add x).position = x.position
  cases hinfinite : x.isInfinite with
  | true =>
    have hadd : zero.add x = x := by
      simp [FloatingPoint.add, nonNegative_zero.number, hx, (isFinite_iff.1 hfinite).2, hinfinite]
    rw [hadd]
    exact ⟨hx, rfl⟩
  | false =>
    rw [add_of_isFinite hfinite (isFinite_iff.2 ⟨hx, hinfinite⟩) hsum]
    split
    · rename_i hzero
      rw [nonNegative_zero.unsigned, Bool.false_and,
        position_of_code_eq_zero (signedUnits_eq_zero.1 hzero)]
      exact ⟨nonNegative_zero.number, position_of_code_eq_zero code_zero⟩
    · rename_i hne
      rw [ofUnits_signedUnits hx hne]
      exact ⟨hx, rfl⟩

end MapDocument.FloatingPoint
