import MapDocument.Json.Source
/-!
# JSON — what source text stands for

From the grammar of a text to its value. Numbers are gathered in eight
bytes and scaled by powers of ten in floating point, strings must be
UTF-8 once their escapes are resolved, of equal keys the last counts, and
values may be nested only so deep.
-/

namespace MapDocument

/-! ## Numbers -/

namespace NumberSource

/-- The first whole number that the significand of a number cannot hold. -/
def significandLimit : Nat := 0x10000000000000000

/-- Gathers digits before the point. The first digit that does not fit and all
after it are dropped; each counts a power of ten. -/
def gatherWhole (significand : Nat) : List Nat → Nat × Nat
  | [] => (significand, 0)
  | d :: rest =>
    if significand * 10 + d < significandLimit then gatherWhole (significand * 10 + d) rest
    else (significand, rest.length + 1)

/-- Gathers digits after the point. The first digit that does not fit and all
after it are dropped; each digit kept takes back a power of ten. -/
def gatherFraction (significand taken : Nat) : List Nat → Nat × Nat
  | [] => (significand, taken)
  | d :: rest =>
    if significand * 10 + d < significandLimit then
      gatherFraction (significand * 10 + d) (taken + 1) rest
    else (significand, taken)

/-- The written exponent, if it fits in four signed bytes. -/
def exponentValue? (ds : List Nat) : Option Nat :=
  let n := ds.foldl (fun n d => n * 10 + d) 0
  if n < 0x80000000 then some n else none

/-- The least and the greatest exponent of ten. -/
def clampExponent (e : Int) : Int := max (-0x80000000) (min e 0x7fffffff)

/-- Scales by a power of ten, in steps that floating point can hold. None if
the result is too great. -/
def scale? : Nat → Double → Int → Option Double
  | 0, x, _ => some x
  | fuel + 1, x, e =>
    if e.natAbs ≤ 308 then
      if 0 ≤ e then
        let y := x * .ofNat (Nat.pow 10 e.toNat)
        if y.isInfinite then none else some y
      else some (x / .ofNat (Nat.pow 10 e.natAbs))
    else if x.isZero then some x
    else if 0 ≤ e then none
    else scale? fuel (x / .ofNat (Nat.pow 10 308)) (e + 308)

/-- The floating-point number of a significand and an exponent of ten. -/
def real? (negative : Bool) (significand : Nat) (exponent : Int) : Option JsonNumber :=
  (scale? (exponent.natAbs / 308 + 1) (.ofNat significand) exponent).map fun x =>
    .real (if negative then -x else x)

/-- The value of a written number; none if it is out of range. -/
def value? (n : NumberSource) : Option JsonNumber :=
  let (significand, dropped) := gatherWhole 0 n.whole
  let (significand, taken) := gatherFraction significand 0 n.fraction
  let exponent : Int := (dropped : Int) - taken
  match n.exponent? with
  | some (negativeExponent, ds) =>
    match exponentValue? ds with
    | some e =>
      let e : Int := if negativeExponent then -e else e
      real? n.negative significand (clampExponent (exponent + e))
    | none =>
      if significand = 0 || negativeExponent then
        some (.real (if n.negative then -FloatingPoint.zero else .zero))
      else none
  | none =>
    if n.hasFraction || 0 < dropped then real? n.negative significand exponent
    else if !n.negative then some (.integer significand)
    else if 0 < significand && significand ≤ 0x8000000000000000 then some (.integer (-significand))
    else some (.real (-(.ofNat significand)))

end NumberSource

/-! ## Strings -/

namespace StringPiece

/-- The bytes of a string with its escapes resolved. A unit of a surrogate
pair has no meaning without the other. -/
def bytes? : List StringPiece → Option Bytes
  | [] => some []
  | .byte b :: rest => (b :: ·) <$> bytes? rest
  | .unit high :: .unit low :: rest =>
    if 0xd800 ≤ high && high < 0xdc00 && 0xdc00 ≤ low && low < 0xe000 then
      let c := Char.ofNat (0x10000 + (high - 0xd800) * 0x400 + (low - 0xdc00))
      (Utf8.encode c.toString ++ ·) <$> bytes? rest
    else if 0xd800 ≤ high && high < 0xe000 then none
    else (Utf8.encode (Char.ofNat high).toString ++ ·) <$> bytes? (.unit low :: rest)
  | .unit n :: rest =>
    if 0xd800 ≤ n && n < 0xe000 then none
    else (Utf8.encode (Char.ofNat n).toString ++ ·) <$> bytes? rest

/-- The text of a string. -/
def text? (pieces : List StringPiece) : Option String := bytes? pieces >>= Utf8.decode?

end StringPiece

/-! ## Values -/

namespace JsonSource

mutual
/-- The value of a source, in which arrays and objects are nested at most `depth` deep. -/
def toJson? (depth : Nat) : JsonSource → Option Json
  | null => some .null
  | bool b => some (.bool b)
  | number n => .number <$> n.value?
  | string pieces => .string <$> StringPiece.text? pieces
  | array items =>
    match depth with
    | 0 => none
    | depth + 1 => .array <$> itemsToJson? depth items
  | object members =>
    match depth with
    | 0 => none
    | depth + 1 => .object <$> membersToJson? depth [] members

/-- The values of the items of an array. -/
def itemsToJson? (depth : Nat) : List JsonSource → Option (List Json)
  | [] => some []
  | item :: rest => do return (← toJson? depth item) :: (← itemsToJson? depth rest)

/-- The members of an object after those in `found`; of equal keys the last counts. -/
def membersToJson? (depth : Nat) (found : List (String × Json)) :
    List (List StringPiece × JsonSource) → Option (List (String × Json))
  | [] => some found
  | (key, item) :: rest => do
    let key ← StringPiece.text? key
    let item ← toJson? depth item
    membersToJson? depth (Json.insertMember key item found) rest
end

end JsonSource

namespace Json

/-- How deep arrays and objects may be nested. -/
def depthLimit : Nat := 127

/-- The value that the bytes hold, if they are JSON. -/
def parse? (bytes : Bytes) : Option Json :=
  JsonSource.parse? bytes >>= JsonSource.toJson? depthLimit

/-- The value that a text holds, if it is JSON. -/
def ofText? (text : String) : Option Json := parse? (Utf8.encode text)

end Json

end MapDocument
