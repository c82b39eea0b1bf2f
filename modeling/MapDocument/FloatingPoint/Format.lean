/-!
# Floating point — formats, magnitudes and rounding

A binary interchange format is given by the width of its fraction and of
its exponent field. Below the sign bit a pattern is a **magnitude code**,
and the finite codes number the representable magnitudes in order. Every
finite magnitude is a whole number of **units**, the unit being the least
positive one, so sums, products and comparisons are exact arithmetic on
natural numbers; `nearest` rounds a quotient of naturals back to a code.
-/

namespace MapDocument

/-- A binary interchange format: the widths of the fraction and of the exponent field. -/
structure FloatFormat where
  fractionBits : Nat
  exponentBits : Nat
deriving DecidableEq, Repr

namespace FloatFormat

/-- The four-byte format. -/
@[reducible] def single : FloatFormat := ⟨23, 8⟩

/-- The eight-byte format. -/
@[reducible] def double : FloatFormat := ⟨52, 11⟩

variable (F : FloatFormat)

/-- Bits of a pattern below its sign. -/
@[reducible] def magnitudeBits : Nat := F.exponentBits + F.fractionBits

/-- Bits of a pattern. -/
@[reducible] def width : Nat := F.magnitudeBits + 1

/-- Code of infinity; the codes below it are finite and those above it are no numbers. -/
def infinityCode : Nat := (Nat.pow 2 F.exponentBits - 1) * Nat.pow 2 F.fractionBits

/-- Code of the number that stands for all failed operations. -/
def quietCode : Nat := F.infinityCode + Nat.pow 2 (F.fractionBits - 1)

/-- The number one is two to this power many units. -/
def unitExponent : Nat := Nat.pow 2 (F.exponentBits - 1) - 2 + F.fractionBits

/-- Units in the number one. -/
def unitsPerOne : Nat := Nat.pow 2 F.unitExponent

/-- Magnitude of a code in units. -/
def units (code : Nat) : Nat :=
  let exponent := code / Nat.pow 2 F.fractionBits
  let fraction := code % Nat.pow 2 F.fractionBits
  if exponent = 0 then fraction
  else (Nat.pow 2 F.fractionBits + fraction) * Nat.pow 2 (exponent - 1)

/-- The whole number nearest to a quotient; of two equally near ones the even one. -/
def roundQuotient (numerator denominator : Nat) : Nat :=
  let quotient := numerator / denominator
  let remainder := numerator % denominator
  if denominator < 2 * remainder ∨ (denominator = 2 * remainder ∧ quotient % 2 = 1) then
    quotient + 1
  else
    quotient

/-- Code of the magnitude nearest to `numerator / denominator` units; of two
equally near ones the one with the even code. What lies beyond the finite
magnitudes becomes infinity. -/
def nearest (numerator denominator : Nat) : Nat :=
  let shift := (numerator / denominator).log2 - F.fractionBits
  let significand := roundQuotient numerator (denominator * Nat.pow 2 shift)
  min (shift * Nat.pow 2 F.fractionBits + significand) F.infinityCode

end FloatFormat

/-- Digit-by-digit square root of the low `2 * pairs` bits of a number. -/
def floorSqrtBits : Nat → Nat → Nat
  | 0, _ => 0
  | pairs + 1, n =>
    let root := 2 * floorSqrtBits pairs (n / 4)
    if (root + 1) * (root + 1) ≤ n then root + 1 else root

/-- The greatest number whose square is at most `n`. -/
def floorSqrt (n : Nat) : Nat := floorSqrtBits (n.log2 / 2 + 1) n

end MapDocument
