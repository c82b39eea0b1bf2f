import MapDocument.Text.Utf8
/-!
# Deflate — bits of a compressed stream

A compressed stream is a sequence of bits, the least significant bit of each
byte first. A decoder takes bits and bytes from the front of it and puts
bytes out; it stops where the stream makes no sense, or where it ends too
early, and what was put out until then is not lost.
-/

namespace MapDocument.Deflate

/-! ## Bits and numbers -/

/-- The low bits of a number, least significant first. -/
def bitsOf : Nat → Nat → List Bool
  | 0, _ => []
  | count + 1, n => (n % 2 = 1) :: bitsOf count (n / 2)

/-- The number whose bits are given, least significant first. -/
def ofBits : List Bool → Nat
  | [] => 0
  | b :: rest => b.toNat + 2 * ofBits rest

/-- Bits filled up with zeros to whole bytes. -/
def packBits : List Bool → Bytes
  | [] => []
  | b :: rest => UInt8.ofNat (ofBits (b :: rest.take 7)) :: packBits (rest.drop 7)
termination_by bits => bits.length
decreasing_by simp only [List.length_drop, List.length_cons]; omega

/-! ## Decoders -/

/-- Why a decoder stopped. -/
inductive Stop
  /-- The stream makes no sense. -/
  | corrupt
  /-- The stream ends too early. -/
  | exhausted
deriving DecidableEq, Repr

/-- What a decoder works on. -/
structure Stream where
  /-- Bits left of the byte that was begun. -/
  pending : List Bool
  /-- Bytes that were not begun. -/
  bytes : Bytes
  /-- What was put out. -/
  output : Array UInt8

/-- A stream of which nothing was read. -/
def Stream.ofBytes (bytes : Bytes) : Stream := ⟨[], bytes, #[]⟩

/-- A step of decoding. -/
abbrev Decoder (α : Type) := EStateM Stop Stream α

namespace Decoder

variable {α : Type}

/-- Stops because the stream makes no sense. -/
def corrupt : Decoder α := fun s => .error .corrupt s

/-- Stops because the stream ends too early. -/
def exhausted : Decoder α := fun s => .error .exhausted s

/-- The next bit. -/
def bit : Decoder Bool := fun s =>
  match s.pending, s.bytes with
  | b :: pending, _ => .ok b { s with pending }
  | [], byte :: bytes =>
    .ok (byte.toNat % 2 = 1) { s with pending := bitsOf 7 (byte.toNat / 2), bytes }
  | [], [] => .error .exhausted s

/-- The number that the next bits make. -/
def bits : Nat → Decoder Nat
  | 0 => return 0
  | count + 1 => do
    let b ← bit
    return b.toNat + 2 * (← bits count)

/-- Passes over what is left of the byte that was begun. -/
def align : Decoder Unit := modify fun s => { s with pending := [] }

/-- The next whole byte. -/
def byte : Decoder UInt8 := fun s =>
  match s.bytes with
  | b :: bytes => .ok b { s with bytes }
  | [] => .error .exhausted s

/-- Puts a byte out. -/
def put (b : UInt8) : Decoder Unit := modify fun s => { s with output := s.output.push b }

end Decoder

end MapDocument.Deflate
