import MapDocument.FloatingPoint.Basic
/-!
# Floating point — shortest decimals

The decimal of fewest digits that reads back as a given magnitude. All
decimals that read back lie between the two midpoints to the neighbouring
magnitudes; for one digit, two digits and so on, the two decimals of that
length around the magnitude are tried in exact arithmetic, and the first
length with a hit wins.
-/

namespace MapDocument

/-- The decimal `digits * 10 ^ exponent`. -/
structure Decimal where
  digits : Nat
  exponent : Int
deriving DecidableEq, Repr

/-- Which of two equally near decimals is taken. -/
inductive DecimalTie
  | even
  | up
deriving DecidableEq, Repr

/-- Number of decimal digits of a natural number; zero has one. -/
def digitCount (n : Nat) : Nat := (Nat.toDigits 10 n).length

/-- The exponent `x` with `10 ^ x ≤ numerator / denominator < 10 ^ (x + 1)`. -/
def scientificExponent (numerator denominator : Nat) : Int :=
  if denominator ≤ numerator then
    (digitCount (numerator / denominator) : Int) - 1
  else
    let count := digitCount (denominator / numerator)
    if denominator ≤ numerator * Nat.pow 10 (count - 1) then -((count : Int) - 1)
    else -(count : Int)

/-- A value and the ends of the interval of decimals that read back as it,
all over one denominator. -/
structure ReadBack where
  low : Nat
  value : Nat
  high : Nat
  denominator : Nat
  /-- Whether the ends themselves read back. -/
  closed : Bool
deriving Repr

namespace ReadBack

/-- The interval of a positive finite magnitude. The ends are midpoints, and
reading sends them to the even code. -/
def ofCode (F : FloatFormat) (code : Nat) : ReadBack where
  low := F.units (code - 1) + F.units code
  value := 2 * F.units code
  high := F.units code + F.units (code + 1)
  denominator := 2 * F.unitsPerOne
  closed := code % 2 = 0

/-- Whether the decimal `m * 10 ^ exponent` reads back. -/
def contains (r : ReadBack) (m : Nat) (exponent : Int) : Bool :=
  let decimal := m * r.denominator * Nat.pow 10 exponent.toNat
  let scale := Nat.pow 10 (-exponent).toNat
  if r.closed then r.low * scale ≤ decimal && decimal ≤ r.high * scale
  else r.low * scale < decimal && decimal < r.high * scale

/-- Whether the value is nearer to `m + 1` than to `m` steps of a grid. -/
def isUpper (tie : DecimalTie) (value step m : Nat) : Bool :=
  match compare (2 * value) ((2 * m + 1) * step), tie with
  | .lt, _ => false
  | .gt, _ => true
  | .eq, .even => m % 2 = 1
  | .eq, .up => true

/-- The decimal on the grid of step `10 ^ exponent` that reads back and is nearest, if one does. -/
def onGrid? (r : ReadBack) (tie : DecimalTie) (exponent : Int) : Option Decimal :=
  let step := r.denominator * Nat.pow 10 exponent.toNat
  let value := r.value * Nat.pow 10 (-exponent).toNat
  let m := value / step
  match r.contains m exponent, r.contains (m + 1) exponent with
  | true, true => some ⟨if isUpper tie value step m then m + 1 else m, exponent⟩
  | true, false => some ⟨m, exponent⟩
  | false, true => some ⟨m + 1, exponent⟩
  | false, false => none

/-- The first hit on ever finer grids, at most `fuel` of them. -/
def search (r : ReadBack) (tie : DecimalTie) : Nat → Int → Decimal
  | 0, exponent =>
    ⟨r.value * Nat.pow 10 (-exponent).toNat / (r.denominator * Nat.pow 10 exponent.toNat), exponent⟩
  | fuel + 1, exponent =>
    match r.onGrid? tie exponent with
    | some d => d
    | none => search r tie fuel (exponent - 1)

end ReadBack

/-- Cuts off trailing zeros, at most `fuel` of them. -/
def Decimal.trim (d : Decimal) : Nat → Decimal
  | 0 => d
  | fuel + 1 =>
    if d.digits % 10 = 0 then Decimal.trim ⟨d.digits / 10, d.exponent + 1⟩ fuel else d

/-- The decimal of fewest digits that reads back as the magnitude of a
positive finite code, the nearest of these, without trailing zeros. Seventeen
digits tell all numbers of the wider format apart. -/
def shortestDecimal (F : FloatFormat) (tie : DecimalTie) (code : Nat) : Decimal :=
  let r := ReadBack.ofCode F code
  let d := r.search tie 17 (scientificExponent r.value r.denominator)
  d.trim (digitCount d.digits)

end MapDocument
