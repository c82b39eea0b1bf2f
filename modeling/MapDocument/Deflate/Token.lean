import MapDocument.Deflate.PrefixCode
/-!
# Deflate — tokens

A block of compressed data is a sequence of tokens: single bytes, and copies
of what was put out before. The length and the distance of a copy are
written as the symbol of a span of numbers, and which number of the span it
is. The window before the first byte holds zeros.
-/

namespace MapDocument.Deflate

/-- One step of compressed data. -/
inductive Token
  | byte (b : UInt8)
  /-- So many bytes again, from so far back. -/
  | copy (length distance : Nat)
deriving DecidableEq, Repr

/-- Numbers written with one symbol: the first of them, and the bits that tell
which of them is meant. -/
structure Span where
  first : Nat
  width : Nat
deriving DecidableEq, Repr

/-- Spans one after the other, of the given widths. -/
def spansFrom (first : Nat) : List Nat → List Span
  | [] => []
  | width :: rest => ⟨first, width⟩ :: spansFrom (first + Nat.pow 2 width) rest

/-- The spans of lengths. The greatest length has a symbol of its own. -/
def lengthSpans : Array Span :=
  (spansFrom 3 [0, 0, 0, 0, 0, 0, 0, 0, 1, 1, 1, 1, 2, 2, 2, 2, 3, 3, 3, 3, 4, 4, 4, 4,
    5, 5, 5, 5] ++ [Span.mk 258 0]).toArray

/-- The spans of distances. -/
def distanceSpans : Array Span :=
  (spansFrom 1 [0, 0, 0, 0, 1, 1, 2, 2, 3, 3, 4, 4, 5, 5, 6, 6, 7, 7, 8, 8, 9, 9, 10, 10, 11, 11,
    12, 12, 13, 13]).toArray

/-- The symbol that ends a block. -/
def endSymbol : Nat := 256

/-- The symbol of the first span of lengths. -/
def firstLengthSymbol : Nat := 257

/-- The two codes of a block: of bytes, ends and lengths, and of distances. -/
structure BlockCodes where
  main : PrefixCode
  distance : PrefixCode

/-- The codes of the blocks that do not bring their own. -/
def BlockCodes.fixed : BlockCodes where
  main := (PrefixCode.ofLengths? false (List.replicate 144 8 ++ List.replicate 112 9 ++
    List.replicate 24 7 ++ List.replicate 8 8)).getD .unused
  distance := (PrefixCode.ofLengths? false (List.replicate 32 5)).getD .unused

namespace Token

/-- The byte that was put out so far back. -/
def back (output : Array UInt8) (distance : Nat) : UInt8 :=
  if distance ≤ output.size then output.getD (output.size - distance) 0 else 0

/-- Puts out so many bytes again, each from so far back. -/
def copyOn (distance : Nat) : Nat → Array UInt8 → Array UInt8
  | 0, output => output
  | length + 1, output => copyOn distance length (output.push (back output distance))

/-- What there is after a token. -/
def apply (output : Array UInt8) : Token → Array UInt8
  | byte b => output.push b
  | copy length distance => copyOn distance length output

/-- The number meant, of the span with the given symbol. -/
def inSpan (spans : Array Span) (symbol : Nat) : Decoder Nat :=
  match spans[symbol]? with
  | none => Decoder.corrupt
  | some span => do return span.first + (← Decoder.bits span.width)

/-- The next token; none at the end of the block. -/
def read? (codes : BlockCodes) : Decoder (Option Token) := do
  let symbol ← codes.main.read
  if symbol < endSymbol then return some (byte (UInt8.ofNat symbol))
  else if symbol = endSymbol then return none
  else
    let length ← inSpan lengthSpans (symbol - firstLengthSymbol)
    let distance ← inSpan distanceSpans (← codes.distance.read)
    return some (copy length distance)

end Token

end MapDocument.Deflate
