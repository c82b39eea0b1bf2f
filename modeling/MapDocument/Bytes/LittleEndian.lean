import MapDocument.Text.Utf8
import MapDocument.FloatingPoint.Basic
/-!
# Bytes — little-endian words

Fixed-width words, least significant byte first.
-/

namespace MapDocument

/-- The low `count` bytes of a number, least significant first. -/
def littleEndian : Nat → Nat → Bytes
  | 0, _ => []
  | count + 1, n => UInt8.ofNat n :: littleEndian count (n / 256)

/-- The number whose bytes are given, least significant first. -/
def ofLittleEndian : Bytes → Nat
  | [] => 0
  | b :: rest => b.toNat + 256 * ofLittleEndian rest

namespace Bytes

/-- A two-byte integer. -/
def ofInt16 (n : Int16) : Bytes := littleEndian 2 n.toUInt16.toNat

/-- A four-byte integer. -/
def ofInt32 (n : Int32) : Bytes := littleEndian 4 n.toUInt32.toNat

/-- A four-byte number, bit for bit. -/
def ofSingle (x : Single) : Bytes := littleEndian 4 x.bits.toNat

/-- A truth value, as the byte zero or one. -/
def ofBool (b : Bool) : Bytes := [if b then 1 else 0]

/-- The two-byte integer of two bytes. -/
def toInt16 (bytes : Bytes) : Int16 := (UInt16.ofNat (ofLittleEndian bytes)).toInt16

/-- The four-byte integer of four bytes. -/
def toInt32 (bytes : Bytes) : Int32 := (UInt32.ofNat (ofLittleEndian bytes)).toInt32

/-- The number of four bytes, bit for bit. -/
def toSingle (bytes : Bytes) : Single := ⟨BitVec.ofNat _ (ofLittleEndian bytes)⟩

end Bytes

end MapDocument
