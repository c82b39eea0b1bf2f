import Std.Data.HashMap
import MapDocument.Bytes.LittleEndian
import MapDocument.Deflate.Token
/-!
# Deflate — writing blocks

Two ways to write the same content: `stored`, as it is, and `packed`, as one
block of tokens with the fixed codes. Copies are looked for among the places
where the next three bytes were seen before, the latest first; the effort is
the number of places looked at.
-/

namespace MapDocument.Deflate

/-! ## Bytes as they are -/

/-- How many bytes a block can hold as they are. -/
def storedLimit : Nat := 0xffff

/-- A block of bytes as they are. -/
def storedBlock (last : Bool) (content : Bytes) : Bytes :=
  UInt8.ofNat last.toNat ::
    (littleEndian 2 content.length ++ (littleEndian 2 (storedLimit - content.length) ++ content))

/-- Content as it is, in as many blocks as it takes. -/
def stored (content : Bytes) : Bytes :=
  if content.length ≤ storedLimit then storedBlock true content
  else storedBlock false (content.take storedLimit) ++ stored (content.drop storedLimit)
termination_by content.length
decreasing_by simp only [List.length_drop, storedLimit] at *; omega

/-! ## Tokens -/

/-- The shortest copy. -/
def copyLeast : Nat := 3

/-- The longest copy. -/
def copyGreatest : Nat := 258

/-- How far back a copy can reach. -/
def copyReach : Nat := 32768

/-- Number of bytes, up to a limit, that are the same from two places on. -/
def sameBytes (content : Array UInt8) (i j : Nat) : Nat → Nat
  | 0 => 0
  | limit + 1 =>
    if content.getD i 0 = content.getD j 0 then sameBytes content (i + 1) (j + 1) limit + 1 else 0

/-- The places where three bytes were seen, the latest first. -/
abbrev Sightings := Std.HashMap (UInt8 × UInt8 × UInt8) (List Nat)

/-- The three bytes at a place. -/
def threeAt (content : Array UInt8) (place : Nat) : UInt8 × UInt8 × UInt8 :=
  (content.getD place 0, content.getD (place + 1) 0, content.getD (place + 2) 0)

/-- The length and the distance of the longest copy from one of the places. -/
def longestCopy (content : Array UInt8) (here : Nat) (places : List Nat) : Nat × Nat :=
  let limit := min copyGreatest (content.size - here)
  places.foldl (fun best place =>
    let length := sameBytes content place here limit
    if best.1 < length && here ≤ place + copyReach then (length, here - place) else best) (0, 0)

/-- Sightings with those of the next `count` places, so many kept for each three bytes. -/
def sight (effort : Nat) (content : Array UInt8) (place : Nat) : Nat → Sightings → Sightings
  | 0, seen => seen
  | count + 1, seen =>
    let key := threeAt content place
    sight effort content (place + 1) count
      (seen.insert key (place :: (seen.getD key []).take (effort - 1)))

/-- The tokens of content from a place on, after those in `found`, which are in
reverse. There are no more of them than bytes, to which the fuel is set. -/
def tokensFrom (effort : Nat) (content : Array UInt8) :
    Nat → Nat → Sightings → List Token → List Token
  | 0, _, _, found => found.reverse
  | fuel + 1, here, seen, found =>
    if content.size ≤ here then found.reverse
    else
      let (length, distance) := longestCopy content here (seen.getD (threeAt content here) [])
      if copyLeast ≤ length then
        tokensFrom effort content fuel (here + length) (sight effort content here length seen)
          (.copy length distance :: found)
      else
        tokensFrom effort content fuel (here + 1) (sight effort content here 1 seen)
          (.byte (content.getD here 0) :: found)

/-- The tokens of content. -/
def tokensOf (effort : Nat) (content : Bytes) : List Token :=
  let content := content.toArray
  tokensFrom effort content content.size 0 ∅ []

/-! ## Bits of tokens -/

/-- The bit strings of the symbols of the fixed main code. -/
def fixedMainBits : Array (List Bool) :=
  (Array.range 288).map fun s => (BlockCodes.fixed.main.bits? s).getD []

/-- The bit strings of the symbols of the fixed code of distances. -/
def fixedDistanceBits : Array (List Bool) :=
  (Array.range 32).map fun s => (BlockCodes.fixed.distance.bits? s).getD []

/-- The symbol of the last span that a number can be in, and the bits that tell
it from the others there. -/
def spanOf (spans : Array Span) (n : Nat) : Nat × List Bool :=
  let symbol := (spans.toList.filter (·.first ≤ n)).length - 1
  let span := spans.getD symbol ⟨0, 0⟩
  (symbol, bitsOf span.width (n - span.first))

/-- The bits of a token with the fixed codes. -/
def Token.bits : Token → List Bool
  | byte b => fixedMainBits.getD b.toNat []
  | copy length distance =>
    let (lengthSymbol, lengthBits) := spanOf lengthSpans length
    let (distanceSymbol, distanceBits) := spanOf distanceSpans distance
    fixedMainBits.getD (firstLengthSymbol + lengthSymbol) [] ++ (lengthBits ++
      (fixedDistanceBits.getD distanceSymbol [] ++ distanceBits))

/-- Content as one block of tokens with the fixed codes. -/
def packed (effort : Nat) (content : Bytes) : Bytes :=
  packBits (true :: true :: false ::
    ((tokensOf effort content).flatMap Token.bits ++ fixedMainBits.getD endSymbol []))

end MapDocument.Deflate
