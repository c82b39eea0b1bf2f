import MapDocument.Error
/-!
# Bytes — base64

Bytes as text of sixty-four symbols, six bits each, in groups of four; the
last group is filled up with `=`. Reading accepts exactly what writing
produces: the fill is required, and the bits it stands for are zero.
-/

namespace MapDocument.Base64

/-- The symbol that fills up the last group. -/
def fill : UInt8 := 0x3d

/-- The symbol of a six-bit value. -/
def symbol (n : Nat) : Char :=
  if n < 26 then Char.ofNat (0x41 + n)
  else if n < 52 then Char.ofNat (0x61 + (n - 26))
  else if n < 62 then Char.ofNat (0x30 + (n - 52))
  else if n = 62 then '+'
  else '/'

/-- The value of a symbol. -/
def value? (b : UInt8) : Option Nat :=
  if 0x41 ≤ b && b ≤ 0x5a then some (b.toNat - 0x41)
  else if 0x61 ≤ b && b ≤ 0x7a then some (b.toNat - 0x61 + 26)
  else if 0x30 ≤ b && b ≤ 0x39 then some (b.toNat - 0x30 + 52)
  else if b = 0x2b then some 62
  else if b = 0x2f then some 63
  else none

/-! ## Writing -/

/-- The symbols of bytes. -/
def symbols : Bytes → List Char
  | [] => []
  | [a] => [symbol (a.toNat / 4), symbol (a.toNat % 4 * 16), '=', '=']
  | [a, b] =>
    [symbol (a.toNat / 4), symbol (a.toNat % 4 * 16 + b.toNat / 16), symbol (b.toNat % 16 * 4), '=']
  | a :: b :: c :: rest =>
    symbol (a.toNat / 4) :: symbol (a.toNat % 4 * 16 + b.toNat / 16) ::
      symbol (b.toNat % 16 * 4 + c.toNat / 64) :: symbol (c.toNat % 64) :: symbols rest

/-- The text of bytes. -/
def encode (bytes : Bytes) : String := String.ofList (symbols bytes)

/-! ## Reading -/

/-- The bytes of a full group. -/
def groupBytes (a b c d : Nat) : Bytes :=
  [UInt8.ofNat (a * 4 + b / 16), UInt8.ofNat (b % 16 * 16 + c / 4), UInt8.ofNat (c % 4 * 64 + d)]

/-- The value of a symbol at a position. -/
def valueAt (position : Nat) (b : UInt8) : Except Base64Fault Nat :=
  match value? b with
  | some n => .ok n
  | none => .error (.symbol b position)

/-- The values of the symbols of the last group, from place `index` of it on.
After the first fill, at `filled?`, nothing but fill may come. -/
def lastValues (position index : Nat) (filled? : Option Nat) : Bytes → Except Base64Fault (List Nat)
  | [] => .ok []
  | b :: rest =>
    if b = fill then
      if index < 2 then .error (.symbol fill (position + index))
      else lastValues position (index + 1) (some (filled?.getD index)) rest
    else
      match filled? with
      | some first => .error (.symbol fill (position + first))
      | none => do
        let n ← valueAt (position + index) b
        return n :: (← lastValues position (index + 1) none rest)

/-- The bytes of the last group, which has at most four symbols. -/
def lastBytes (position : Nat) (group : Bytes) : Except Base64Fault Bytes := do
  let values ← lastValues position 0 none group
  match group, values with
  | [], _ => return []
  | _, [] => throw (.length position)
  | _, [_] => throw (.length (position + 1))
  | _, a :: b :: rest =>
    if group.length % 4 ≠ 0 then throw .padding
    match rest with
    | [] =>
      if b % 16 ≠ 0 then throw (.lastSymbol (group.getD 1 0) (position + 1))
      return [UInt8.ofNat (a * 4 + b / 16)]
    | [c] =>
      if c % 4 ≠ 0 then throw (.lastSymbol (group.getD 2 0) (position + 2))
      return [UInt8.ofNat (a * 4 + b / 16), UInt8.ofNat (b % 16 * 16 + c / 4)]
    | c :: d :: _ => return groupBytes a b c d

/-- The bytes of groups, the first of which begins at `position`. -/
def groups (position : Nat) : Bytes → Except Base64Fault Bytes
  | a :: b :: c :: d :: e :: rest => do
    let a ← valueAt position a
    let b ← valueAt (position + 1) b
    let c ← valueAt (position + 2) c
    let d ← valueAt (position + 3) d
    return groupBytes a b c d ++ (← groups (position + 4) (e :: rest))
  | last => lastBytes position last

/-- A single symbol too many is looked at first. -/
def checkEnd (text : Bytes) : Except Base64Fault Unit :=
  match text.getLast? with
  | some b =>
    if text.length % 4 = 1 && b ≠ fill && (value? b).isNone then
      .error (.symbol b (text.length - 1))
    else .ok ()
  | none => .ok ()

/-- The bytes of a text. -/
def decode (text : Bytes) : Except Base64Fault Bytes := do
  checkEnd text
  groups 0 text

end MapDocument.Base64
