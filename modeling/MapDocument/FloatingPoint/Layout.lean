import MapDocument.FloatingPoint.Shortest
/-!
# Floating point — written forms

How a number is written once its digits are known: where positional
writing ends, what marks a whole number, and how an exponent looks. Each
writer of numbers states these choices in one `FloatLayout`.
-/

namespace MapDocument

/-- The choices of a written form. A number whose leading digit counts
`10 ^ x` is written positionally for `x` from `least` to `greatest`, and with
an exponent otherwise. -/
structure FloatLayout where
  least : Option Int
  greatest : Option Int
  /-- Whole numbers end in `.0`. -/
  marksWhole : Bool
  /-- Exponents that are not negative carry a plus sign. -/
  marksPositive : Bool
  tie : DecimalTie

namespace FloatLayout

/-- All digits positionally, and nothing after a whole number. -/
def plain : FloatLayout where
  least := none
  greatest := none
  marksWhole := false
  marksPositive := false
  tie := .up

/-- Whether numbers of scientific exponent `x` are written positionally. -/
def isPositional (l : FloatLayout) (x : Int) : Bool :=
  l.least.all (· ≤ x) && l.greatest.all (x ≤ ·)

/-- Digits with their point, the leading digit counting `10 ^ x`. -/
def positional (l : FloatLayout) (digits : List Char) (x : Int) : List Char :=
  if x < 0 then
    '0' :: '.' :: (List.replicate ((-x).toNat - 1) '0' ++ digits)
  else
    let whole := x.toNat + 1
    if digits.length ≤ whole then
      digits ++ List.replicate (whole - digits.length) '0' ++
        (if l.marksWhole then ['.', '0'] else [])
    else
      digits.take whole ++ '.' :: digits.drop whole

/-- Digits with an exponent, the leading digit counting `10 ^ x`. -/
def scientific (l : FloatLayout) (digits : List Char) (x : Int) : List Char :=
  let mantissa := match digits with
    | d :: e :: rest => d :: '.' :: e :: rest
    | short => short
  let sign := if x < 0 then ['-'] else if l.marksPositive then ['+'] else []
  mantissa ++ 'e' :: sign ++ Nat.toDigits 10 x.natAbs

/-- The written form of a decimal. -/
def decimal (l : FloatLayout) (d : Decimal) : List Char :=
  let digits := Nat.toDigits 10 d.digits
  let x := d.exponent + (digits.length : Int) - 1
  if l.isPositional x then l.positional digits x else l.scientific digits x

/-- The written form of a number. -/
def text (l : FloatLayout) {F : FloatFormat} (x : FloatingPoint F) : String :=
  if x.isNaN then "NaN"
  else
    let sign := if x.isNegative then ['-'] else []
    let magnitude :=
      if x.isInfinite then ['i', 'n', 'f']
      else if x.isZero then l.positional ['0'] 0
      else l.decimal (shortestDecimal F l.tie x.code)
    String.ofList (sign ++ magnitude)

end FloatLayout

end MapDocument
