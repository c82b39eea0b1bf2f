import MapDocument.Json.Basic
import MapDocument.Text.Utf8
/-!
# JSON — source text

The grammar of JSON, and nothing else: `JsonSource.parse?` accepts the
bytes of one value and keeps its numbers as digits, its strings as bytes
and escapes, and every member of its objects. What a number or a string
stands for is decided afterwards, so a reader that skips a part of the
text asks nothing of it but its grammar.
-/

namespace MapDocument

/-- A number as it was written. -/
structure NumberSource where
  negative : Bool
  whole : List Nat
  fraction : List Nat
  /-- The exponent, as its sign and digits. -/
  exponent? : Option (Bool × List Nat)
  /-- Whether there was a point. -/
  hasFraction : Bool

/-- One piece of a string between its quotes. -/
inductive StringPiece
  | byte (b : UInt8)
  /-- A sixteen-bit unit given by its four digits. -/
  | unit (n : Nat)

/-- A JSON value as it was written. -/
inductive JsonSource
  | null
  | bool (b : Bool)
  | number (n : NumberSource)
  | string (pieces : List StringPiece)
  | array (items : List JsonSource)
  | object (members : List (List StringPiece × JsonSource))

namespace JsonSource

instance : Inhabited JsonSource := ⟨null⟩

/-! ## Tokens -/

/-- Drops white space. -/
def skipBlank : Bytes → Bytes
  | b :: rest => if b = 0x20 || b = 0x09 || b = 0x0a || b = 0x0d then skipBlank rest else b :: rest
  | [] => []

/-- Drops the given bytes, all of which have to be there. -/
def expect? : Bytes → Bytes → Option Bytes
  | [], rest => some rest
  | w :: word, b :: rest => if w = b then expect? word rest else none
  | _ :: _, [] => none

/-- Value of a decimal digit. -/
def digit? (b : UInt8) : Option Nat :=
  if 0x30 ≤ b && b ≤ 0x39 then some (b.toNat - 0x30) else none

/-- Value of a hexadecimal digit. -/
def hexDigit? (b : UInt8) : Option Nat :=
  if 0x30 ≤ b && b ≤ 0x39 then some (b.toNat - 0x30)
  else if 0x61 ≤ b && b ≤ 0x66 then some (b.toNat - 0x61 + 10)
  else if 0x41 ≤ b && b ≤ 0x46 then some (b.toNat - 0x41 + 10)
  else none

/-- All digits at the front. -/
def digits : Bytes → List Nat × Bytes
  | b :: rest =>
    match digit? b with
    | some d => let (ds, tail) := digits rest; (d :: ds, tail)
    | none => ([], b :: rest)
  | [] => ([], [])

/-- The digits at the front, at least one. -/
def someDigits? (bytes : Bytes) : Option (List Nat × Bytes) :=
  match digits bytes with
  | ([], _) => none
  | found => some found

/-- Digits before the point: a lone zero, or digits that start with another one. -/
def whole? (bytes : Bytes) : Option (List Nat × Bytes) :=
  match someDigits? bytes with
  | some (0 :: _ :: _, _) => none
  | found => found

/-- The digits after a point, if there is one. -/
def fraction? : Bytes → Option (Bool × List Nat × Bytes)
  | 0x2e :: rest => (someDigits? rest).map fun (ds, tail) => (true, ds, tail)
  | bytes => some (false, [], bytes)

/-- Sign and digits after the letter of an exponent, if there is one. -/
def exponent? : Bytes → Option (Option (Bool × List Nat) × Bytes)
  | b :: rest =>
    if b = 0x65 || b = 0x45 then
      let (negative, rest) := match rest with
        | 0x2b :: rest => (false, rest)
        | 0x2d :: rest => (true, rest)
        | rest => (false, rest)
      (someDigits? rest).map fun (ds, tail) => (some (negative, ds), tail)
    else some (none, b :: rest)
  | [] => some (none, [])

/-- A number. -/
def number? (bytes : Bytes) : Option (NumberSource × Bytes) := do
  let (negative, bytes) := match bytes with
    | 0x2d :: rest => (true, rest)
    | bytes => (false, bytes)
  let (whole, bytes) ← whole? bytes
  let (hasFraction, fraction, bytes) ← fraction? bytes
  let (exponent, bytes) ← exponent? bytes
  return (⟨negative, whole, fraction, exponent, hasFraction⟩, bytes)

/-- The byte that a one-letter escape stands for. -/
def escape? (b : UInt8) : Option UInt8 :=
  if b = 0x22 || b = 0x5c || b = 0x2f then some b
  else if b = 0x62 then some 0x08
  else if b = 0x66 then some 0x0c
  else if b = 0x6e then some 0x0a
  else if b = 0x72 then some 0x0d
  else if b = 0x74 then some 0x09
  else none

/-- The rest of a string after its opening quote; `found` holds its pieces in reverse. -/
def stringTail? (found : List StringPiece) : Bytes → Option (List StringPiece × Bytes)
  | [] => none
  | 0x22 :: rest => some (found.reverse, rest)
  | 0x5c :: 0x75 :: a :: b :: c :: d :: rest =>
    match hexDigit? a, hexDigit? b, hexDigit? c, hexDigit? d with
    | some a, some b, some c, some d =>
      stringTail? (.unit (((a * 16 + b) * 16 + c) * 16 + d) :: found) rest
    | _, _, _, _ => none
  | 0x5c :: b :: rest =>
    match escape? b with
    | some b => stringTail? (.byte b :: found) rest
    | none => none
  | b :: rest =>
    if b < 0x20 || b = 0x5c then none else stringTail? (.byte b :: found) rest

/-! ## Values -/

mutual
/-- A value after white space. The fuel bounds the nesting and the number of items. -/
def value? : Nat → Bytes → Option (JsonSource × Bytes)
  | 0, _ => none
  | fuel + 1, bytes =>
    match skipBlank bytes with
    | 0x6e :: rest => (expect? [0x75, 0x6c, 0x6c] rest).map fun tail => (null, tail)
    | 0x74 :: rest => (expect? [0x72, 0x75, 0x65] rest).map fun tail => (bool true, tail)
    | 0x66 :: rest => (expect? [0x61, 0x6c, 0x73, 0x65] rest).map fun tail => (bool false, tail)
    | 0x22 :: rest => (stringTail? [] rest).map fun (pieces, tail) => (string pieces, tail)
    | 0x5b :: rest =>
      match skipBlank rest with
      | 0x5d :: tail => some (array [], tail)
      | rest => items? fuel [] rest
    | 0x7b :: rest =>
      match skipBlank rest with
      | 0x7d :: tail => some (object [], tail)
      | rest => members? fuel [] rest
    | rest => (number? rest).map fun (n, tail) => (number n, tail)

/-- The items of an array from one of them on; `found` holds the earlier ones in reverse. -/
def items? : Nat → List JsonSource → Bytes → Option (JsonSource × Bytes)
  | 0, _, _ => none
  | fuel + 1, found, bytes =>
    match value? fuel bytes with
    | none => none
    | some (item, rest) =>
      match skipBlank rest with
      | 0x2c :: rest => items? fuel (item :: found) rest
      | 0x5d :: rest => some (array (item :: found).reverse, rest)
      | _ => none

/-- The members of an object from one of them on; `found` holds the earlier ones in reverse. -/
def members? : Nat → List (List StringPiece × JsonSource) → Bytes → Option (JsonSource × Bytes)
  | 0, _, _ => none
  | fuel + 1, found, bytes =>
    match skipBlank bytes with
    | 0x22 :: rest =>
      match stringTail? [] rest with
      | none => none
      | some (key, rest) =>
        match skipBlank rest with
        | 0x3a :: rest =>
          match value? fuel rest with
          | none => none
          | some (item, rest) =>
            match skipBlank rest with
            | 0x2c :: rest => members? fuel ((key, item) :: found) rest
            | 0x7d :: rest => some (object ((key, item) :: found).reverse, rest)
            | _ => none
        | _ => none
    | _ => none
end

/-- The one value that the bytes hold, with white space around it. Every step
of the reader takes a byte, but for the step from an array or an object to
its items. -/
def parse? (bytes : Bytes) : Option JsonSource :=
  match value? (2 * bytes.length + 2) bytes with
  | some (found, rest) => if skipBlank rest = [] then some found else none
  | none => none

end JsonSource

end MapDocument
