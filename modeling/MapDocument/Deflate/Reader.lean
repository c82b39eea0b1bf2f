import MapDocument.Deflate.Token
/-!
# Deflate — reading blocks

Compressed data comes in blocks, the last of which is marked. A block holds
its bytes as they are, or tokens in one of two ways: with the fixed codes, or
with codes that it describes first, by lengths that are themselves written
with a code.
-/

namespace MapDocument.Deflate

namespace Decoder

/-! ## Bytes as they are -/

/-- Puts out the next bytes. -/
def passOn : Nat → Decoder Unit
  | 0 => return
  | count + 1 => do
    put (← byte)
    passOn count

/-- A two-byte number. -/
def word : Decoder Nat := do
  let low ← byte
  let high ← byte
  return low.toNat + 256 * high.toNat

/-- A block of bytes as they are: their number, the complement of it, and the bytes. -/
def storedBlock : Decoder Unit := do
  align
  let count ← word
  let complement ← word
  if count + complement = 0xffff then passOn count else corrupt

/-! ## Codes described by a block -/

/-- The order in which the lengths of the code for lengths are given. -/
def lengthOrder : List Nat :=
  [16, 17, 18, 0, 8, 7, 9, 6, 10, 5, 11, 4, 12, 3, 13, 2, 14, 1, 15]

/-- So many three-bit numbers. -/
def triples : Nat → Decoder (List Nat)
  | 0 => return []
  | count + 1 => do return (← bits 3) :: (← triples count)

/-- The code with which the lengths of the two codes are written. -/
def lengthCode (given : Nat) : Decoder PrefixCode := do
  let lengths := lengthOrder.zip (← triples given)
  let lengths := (List.range lengthOrder.length).map fun s => (lengths.lookup s).getD 0
  match PrefixCode.ofLengths? false lengths with
  | some code => return code
  | none => corrupt

/-- A length and how often it comes again. A length after others may be told
to be the same as the last of them. -/
def lengthRun (code : PrefixCode) (last? : Option Nat) : Decoder (Nat × Nat) := do
  let symbol ← code.read
  if symbol < 16 then return (symbol, 0)
  else if symbol = 16 then
    match last? with
    | some last => return (last, 2 + (← bits 2))
    | none => corrupt
  else if symbol = 17 then return (0, 2 + (← bits 3))
  else return (0, 10 + (← bits 7))

/-- So many lengths, after those in `found`, which are in reverse. -/
def lengths (code : PrefixCode) (missing : Nat) (found : List Nat) : Decoder (List Nat) :=
  match missing with
  | 0 => return found.reverse
  | missing + 1 => do
    let (length, again) ← lengthRun code found.head?
    if again ≤ missing then
      lengths code (missing - again) (List.replicate (again + 1) length ++ found)
    else corrupt
termination_by missing
decreasing_by omega

/-- The codes that a block describes. -/
def codes : Decoder BlockCodes := do
  let main := 257 + (← bits 5)
  let distance := 1 + (← bits 5)
  let given := 4 + (← bits 4)
  if 286 < main || 30 < distance then corrupt
  let found ← lengths (← lengthCode given) (main + distance) []
  let main? := PrefixCode.ofLengths? true (found.take main)
  let distance? := PrefixCode.ofLengths? true (found.drop main)
  match main?, distance? with
  | some main, some distance => return ⟨main, distance⟩
  | _, _ => corrupt

/-! ## Blocks -/

/-- The tokens of a block. There are no more of them than bits, to which the
fuel is set. -/
def tokens (codes : BlockCodes) : Nat → Decoder Unit
  | 0 => exhausted
  | fuel + 1 => do
    match (← Token.read? codes) with
    | none => return
    | some token =>
      modify fun s => { s with output := token.apply s.output }
      tokens codes fuel

/-- A block; answers whether it is the last. -/
def block (fuel : Nat) : Decoder Bool := do
  let last ← bit
  let sort ← bits 2
  if sort = 0 then storedBlock
  else if sort = 1 then tokens .fixed fuel
  else if sort = 2 then tokens (← codes) fuel
  else corrupt
  return last

/-- All blocks. There are no more of them than bits, to which the fuel is set. -/
def blocksWithin (fuel : Nat) : Nat → Decoder Unit
  | 0 => exhausted
  | more + 1 => do
    if (← block fuel) then return
    blocksWithin fuel more

/-- All blocks up to the last. -/
def blocks : Decoder Unit := do
  let fuel := 8 * (← get).bytes.length
  blocksWithin fuel fuel

end Decoder

end MapDocument.Deflate
