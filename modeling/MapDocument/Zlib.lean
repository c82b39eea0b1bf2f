import MapDocument.Deflate.Reader
import MapDocument.Deflate.Writer
/-!
# Zlib — compressed streams with a checksum

A stream is a header of two bytes, compressed blocks, and a checksum of the
content. Whatever comes after the checksum is not looked at.
-/

namespace MapDocument.Zlib

open Deflate (Decoder Stop Stream)

/-! ## Checksum -/

/-- The greatest prime below 2 ^ 16. -/
def checksumModulus : Nat := 65521

/-- The sum of the bytes, one added, and the sum of all sums on the way. -/
def checksum (content : Array UInt8) : Nat :=
  let (low, high) := content.foldl (fun (low, high) b =>
    let low := (low + b.toNat) % checksumModulus
    (low, (high + low) % checksumModulus)) (1, 0)
  high * 65536 + low

/-! ## Reading -/

/-- The two bytes of a header name the method and the size of its window, and a
number from zero to three; the two together are a multiple of 31. Streams that
rely on a dictionary are not read. -/
def isHeader (method flags : UInt8) : Bool :=
  method.toNat % 16 = 8 && method.toNat / 16 ≤ 7 && (method.toNat * 256 + flags.toNat) % 31 = 0 &&
    flags.toNat / 32 % 2 = 0

/-- A four-byte number, most significant byte first. -/
def bigWord : Decoder Nat := do
  let b₃ ← Decoder.byte
  let b₂ ← Decoder.byte
  let b₁ ← Decoder.byte
  let b₀ ← Decoder.byte
  return ((b₃.toNat * 256 + b₂.toNat) * 256 + b₁.toNat) * 256 + b₀.toNat

/-- A whole stream. -/
def stream : Decoder Unit := do
  let method ← Decoder.byte
  let flags ← Decoder.byte
  if !isHeader method flags then Decoder.corrupt
  Decoder.blocks
  Decoder.align
  let sum ← bigWord
  if sum ≠ checksum (← get).output then Decoder.corrupt

/-- What reading a stream comes to: why it stopped, if it did, and what was put out. -/
def read (bytes : Bytes) : EStateM.Result Stop Stream Unit := stream (.ofBytes bytes)

/-! ## Writing -/

/-- A stream of given blocks. -/
def frame (blocks content : Bytes) : Bytes :=
  [0x78, 0x9c] ++ (blocks ++ (littleEndian 4 (checksum content.toArray)).reverse)

/-- Content as a stream, compressed with an effort from zero, for none, to nine. It
is compressed if that makes it shorter. -/
def write (effort : Nat) (content : Bytes) : Bytes :=
  let plain := frame (Deflate.stored content) content
  if effort = 0 then plain
  else
    let small := frame (Deflate.packed effort content) content
    if small.length < plain.length then small else plain

end MapDocument.Zlib
