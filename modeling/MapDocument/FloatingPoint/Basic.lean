import MapDocument.FloatingPoint.Format
/-!
# Floating point — numbers and arithmetic

A number is a bit pattern of its format, so two patterns that compare as
equal (the two zeros) or as nothing at all (the patterns that are no
numbers) stay apart. Arithmetic is exact on units and rounded once, to
nearest with ties to even.
-/

namespace MapDocument

/-- A number of the format `F`, as its bit pattern. -/
structure FloatingPoint (F : FloatFormat) where
  bits : BitVec F.width
deriving DecidableEq

/-- Four-byte numbers. -/
abbrev Single := FloatingPoint .single

/-- Eight-byte numbers. -/
abbrev Double := FloatingPoint .double

namespace FloatingPoint

variable {F : FloatFormat}

/-! ## Parts of a pattern -/

/-- Whether the sign bit is set. -/
def isNegative (x : FloatingPoint F) : Bool := Nat.pow 2 F.magnitudeBits ≤ x.bits.toNat

/-- The pattern below the sign bit. -/
def code (x : FloatingPoint F) : Nat := x.bits.toNat % Nat.pow 2 F.magnitudeBits

/-- The pattern with the given sign and magnitude code. -/
def ofCode (negative : Bool) (code : Nat) : FloatingPoint F :=
  ⟨BitVec.ofNat _ (if negative then Nat.pow 2 F.magnitudeBits + code else code)⟩

/-- The pattern is no number. -/
def isNaN (x : FloatingPoint F) : Bool := F.infinityCode < x.code

/-- Plus or minus infinity. -/
def isInfinite (x : FloatingPoint F) : Bool := x.code = F.infinityCode

/-- A number other than the infinities. -/
def isFinite (x : FloatingPoint F) : Bool := x.code < F.infinityCode

/-- Plus or minus zero. -/
def isZero (x : FloatingPoint F) : Bool := x.code = 0

/-- The pattern that failed operations give. -/
def nan : FloatingPoint F := ofCode false F.quietCode

/-- Positive infinity. -/
def infinity : FloatingPoint F := ofCode false F.infinityCode

/-- Positive zero. -/
def zero : FloatingPoint F := ofCode false 0

instance : Inhabited (FloatingPoint F) := ⟨zero⟩

/-- Magnitude of a finite number in units. -/
def units (x : FloatingPoint F) : Nat := F.units x.code

/-- Value of a finite number in units. -/
def signedUnits (x : FloatingPoint F) : Int :=
  if x.isNegative then -(x.units : Int) else x.units

/-! ## Rounding -/

/-- The number nearest to `numerator / denominator` units, with the given sign. -/
def ofUnits (negative : Bool) (numerator denominator : Nat) : FloatingPoint F :=
  ofCode negative (F.nearest numerator denominator)

/-- The number nearest to `numerator / denominator`. -/
def ofQuotient (negative : Bool) (numerator denominator : Nat) : FloatingPoint F :=
  ofUnits negative (numerator * F.unitsPerOne) denominator

/-- The number nearest to a natural number. -/
def ofNat (n : Nat) : FloatingPoint F := ofQuotient false n 1

/-- The number nearest to an integer. -/
def ofInt (n : Int) : FloatingPoint F := ofQuotient (n < 0) n.natAbs 1

/-- The nearest number of another format. The patterns that are no numbers become `nan`. -/
def convert {G : FloatFormat} (x : FloatingPoint F) : FloatingPoint G :=
  if x.isNaN then nan
  else if x.isInfinite then ofCode x.isNegative G.infinityCode
  else ofUnits x.isNegative (x.units * G.unitsPerOne) F.unitsPerOne

/-! ## Order -/

/-- Position of a number on the line: the codes, negated below zero, so that
the two zeros meet. -/
def position (x : FloatingPoint F) : Int :=
  if x.isNegative then -(x.code : Int) else x.code

/-- Both are numbers, and the first is at most the second. -/
def le (x y : FloatingPoint F) : Bool := !x.isNaN && !y.isNaN && x.position ≤ y.position

/-- Both are numbers, and the first is less than the second. -/
def lt (x y : FloatingPoint F) : Bool := !x.isNaN && !y.isNaN && x.position < y.position

/-- Both are numbers of one value. -/
def equals (x y : FloatingPoint F) : Bool := !x.isNaN && !y.isNaN && x.position = y.position

/-- The lesser of two; of equal ones the second, of a number and none the number, and of
two that are no numbers the first. -/
def min (x y : FloatingPoint F) : FloatingPoint F :=
  if y.isNaN then x else if x.lt y then x else y

/-- The greater of two; of equal ones the second, of a number and none the number, and of
two that are no numbers the first. -/
def max (x y : FloatingPoint F) : FloatingPoint F :=
  if y.isNaN then x else if y.lt x then x else y

/-! ## Arithmetic -/

/-- The number with the sign turned. -/
def neg (x : FloatingPoint F) : FloatingPoint F := ofCode (!x.isNegative) x.code

/-- Sum. An exact zero is positive unless both terms are negative. -/
def add (x y : FloatingPoint F) : FloatingPoint F :=
  if x.isNaN || y.isNaN then nan
  else if x.isInfinite then
    if y.isInfinite && x.isNegative != y.isNegative then nan else x
  else if y.isInfinite then y
  else
    let sum := x.signedUnits + y.signedUnits
    if sum = 0 then ofCode (x.isNegative && y.isNegative) 0
    else ofUnits (sum < 0) sum.natAbs 1

/-- Difference. -/
def sub (x y : FloatingPoint F) : FloatingPoint F :=
  if y.isNaN then nan else x.add y.neg

/-- Product. -/
def mul (x y : FloatingPoint F) : FloatingPoint F :=
  let negative := x.isNegative != y.isNegative
  if x.isNaN || y.isNaN then nan
  else if x.isInfinite || y.isInfinite then
    if x.isZero || y.isZero then nan else ofCode negative F.infinityCode
  else ofUnits negative (x.units * y.units) F.unitsPerOne

/-- Quotient. -/
def div (x y : FloatingPoint F) : FloatingPoint F :=
  let negative := x.isNegative != y.isNegative
  if x.isNaN || y.isNaN then nan
  else if x.isInfinite then
    if y.isInfinite then nan else ofCode negative F.infinityCode
  else if y.isInfinite then ofCode negative 0
  else if y.isZero then
    if x.isZero then nan else ofCode negative F.infinityCode
  else ofUnits negative (x.units * F.unitsPerOne) y.units

/-- Square root. The root of `n` is rounded from four times itself, cut down
to an even number and made odd if something was cut off: that keeps it on
the same side of every half unit. -/
def sqrt (x : FloatingPoint F) : FloatingPoint F :=
  if x.isNaN then nan
  else if x.isZero then x
  else if x.isNegative then nan
  else if x.isInfinite then x
  else
    let square := 4 * (x.units * F.unitsPerOne)
    let root := floorSqrt square
    ofUnits false (if root * root = square then 2 * root else 2 * root + 1) 4

instance : Neg (FloatingPoint F) := ⟨neg⟩
instance : Add (FloatingPoint F) := ⟨add⟩
instance : Sub (FloatingPoint F) := ⟨sub⟩
instance : Mul (FloatingPoint F) := ⟨mul⟩
instance : Div (FloatingPoint F) := ⟨div⟩

instance : OfNat (FloatingPoint F) n := ⟨ofNat n⟩

/-- Decimal literals are read to the nearest number. -/
instance : OfScientific (FloatingPoint F) where
  ofScientific digits negativeExponent exponent :=
    if negativeExponent then ofQuotient false digits (Nat.pow 10 exponent)
    else ofQuotient false (digits * Nat.pow 10 exponent) 1

end FloatingPoint

end MapDocument
