import MapDocument.Deflate.Bits
/-!
# Deflate — prefix codes

A prefix code gives symbols bit strings none of which begins another, so it
is a binary tree with symbols at its leaves. A code is told by the lengths
of its strings alone: symbols take their places from the left, the shorter
strings first and those of one length in order.
-/

namespace MapDocument.Deflate

/-- Where a sequence of bits leads. -/
inductive PrefixCode
  /-- To no symbol. -/
  | unused
  | symbol (s : Nat)
  | branch (zero one : PrefixCode)

namespace PrefixCode

/-- The greatest length of a bit string. -/
def lengthLimit : Nat := 15

/-- The symbols that have a bit string, each after its length, in the order
of their places. -/
def ordered (lengths : List Nat) : List (Nat × Nat) :=
  (List.range lengthLimit).flatMap fun n =>
    lengths.zipIdx.filter fun (length, _) => length = n + 1

/-- The tree at a depth, over so many levels, of symbols in order of their
places; and the symbols for which it has no room. -/
def place : Nat → Nat → List (Nat × Nat) → PrefixCode × List (Nat × Nat)
  | _, _, [] => (unused, [])
  | 0, _, symbols => (unused, symbols)
  | levels + 1, depth, (length, s) :: rest =>
    if length ≤ depth then (symbol s, rest)
    else
      let (zero, rest) := place levels (depth + 1) ((length, s) :: rest)
      let (one, rest) := place levels (depth + 1) rest
      (branch zero one, rest)

/-- Every sequence of bits leads to a symbol. -/
def isComplete : PrefixCode → Bool
  | unused => false
  | symbol _ => true
  | branch zero one => zero.isComplete && one.isComplete

/-- At most one symbol, and that one with the bit string `0`. -/
def isLone : PrefixCode → Bool
  | branch unused unused => true
  | branch (symbol _) unused => true
  | _ => false

/-- The code whose bit strings have the given lengths, zero for none. There
has to be room for all of them. No bit string may be left unused, but in a
lone code where `mayBeLone` allows it. -/
def ofLengths? (mayBeLone : Bool) (lengths : List Nat) : Option PrefixCode :=
  let symbols := ordered lengths
  let (zero, rest) := place lengthLimit 1 symbols
  let (one, rest) := place lengthLimit 1 rest
  let code := branch zero one
  if rest.isEmpty && (code.isComplete || mayBeLone && code.isLone) then some code else none

/-- The next symbol. -/
def read : PrefixCode → Decoder Nat
  | unused => Decoder.corrupt
  | symbol s => return s
  | branch zero one => do
    let b ← Decoder.bit
    if b then one.read else zero.read

/-- The bit string of a symbol. -/
def bits? (s : Nat) : PrefixCode → Option (List Bool)
  | unused => none
  | symbol t => if s = t then some [] else none
  | branch zero one =>
    match zero.bits? s with
    | some bits => some (false :: bits)
    | none => (one.bits? s).map (true :: ·)

end PrefixCode

end MapDocument.Deflate
