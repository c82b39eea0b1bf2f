import MapDocument.Bytes.LittleEndian
import MapDocument.Error
/-!
# Bytes — fields that can fail to fit

Integers checked against the width of their field, counted sequences, and
text ended by a zero byte.
-/

namespace MapDocument

namespace Bytes

/-- A two-byte integer, if the number fits. -/
def ofInt16? (n : Int) : Except Error Bytes :=
  if -0x8000 ≤ n ∧ n < 0x8000 then .ok (ofInt16 (Int16.ofInt n))
  else .error (Fault.tooGreatForInt16 n)

/-- A length or count as a four-byte integer, if it fits. -/
def ofLength? (n : Nat) : Except Error Bytes :=
  if n < 0x80000000 then .ok (ofInt32 (Int32.ofNat n)) else .error (Fault.tooLong n)

/-- Text, ended by a zero byte. Text with a zero byte of its own could not be read back. -/
def ofString? (s : String) : Except Error Bytes :=
  let bytes := Utf8.encode s
  if bytes.contains 0 then .error (Fault.zeroInString s) else .ok (bytes ++ [0])

/-- Numbers after their count, bit for bit. -/
def ofSingles? (xs : List Single) : Except Error Bytes := do
  let count ← ofLength? xs.length
  return count ++ xs.flatMap ofSingle

end Bytes

end MapDocument
