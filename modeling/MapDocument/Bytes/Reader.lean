import MapDocument.Bytes.LittleEndian
import MapDocument.Edit
/-!
# Bytes — reading a sequence of fields

A reader is a place in a sequence of bytes. A read that is refused stays
where it found the fault: a field that is too short, a string or text that
is malformed consume nothing, but a truth value and a length are consumed
before they are judged.
-/

namespace MapDocument

/-- A place in a sequence of bytes: how far it is, and what follows. -/
structure Reader where
  position : Nat
  rest : Bytes
deriving DecidableEq

/-- One field to read. -/
inductive ReadStep
  | int16
  | int32
  | single
  | bool
  | length
  | string
  | singles
deriving DecidableEq, Repr

/-- A field that was read. -/
inductive ReadValue
  | int16 (n : Int16)
  | int32 (n : Int32)
  | single (x : Single)
  | bool (b : Bool)
  | length (n : Nat)
  | string (s : String)
  | singles (xs : List Single)
deriving DecidableEq

namespace Reader

/-- The start of a sequence of bytes. -/
def ofBytes (bytes : Bytes) : Reader := ⟨0, bytes⟩

/-- Bytes not read yet. -/
def remaining (r : Reader) : Nat := r.rest.length

/-- Everything has been read. -/
def isFinished (r : Reader) : Bool := r.rest.isEmpty

/-- The place so many bytes further on. -/
def skip (count : Nat) (r : Reader) : Reader := ⟨r.position + count, r.rest.drop count⟩

/-- The next bytes. -/
def take (count : Nat) : Edit Reader Bytes := do
  let r ← get
  if count ≤ r.remaining then
    set (r.skip count)
    return r.rest.take count
  else Edit.refuse (Fault.tooFewBytes count r.position r.remaining)

/-- A two-byte integer. -/
def int16 : Edit Reader Int16 := Bytes.toInt16 <$> take 2

/-- A four-byte integer. -/
def int32 : Edit Reader Int32 := Bytes.toInt32 <$> take 4

/-- A four-byte number, bit for bit. -/
def single : Edit Reader Single := Bytes.toSingle <$> take 4

/-- A truth value. -/
def bool : Edit Reader Bool := do
  let r ← get
  match (← take 1) with
  | [0] => return false
  | [1] => return true
  | bytes => Edit.refuse (Fault.notBoolByte (bytes.headD 0) r.position)

/-- A length or count. -/
def length : Edit Reader Nat := do
  let n := (← int32).toInt
  if 0 ≤ n then return n.toNat else Edit.refuse (Fault.negativeLength n)

/-- Text up to the next zero byte. -/
def string : Edit Reader String := do
  let r ← get
  let bytes := r.rest.takeWhile (· ≠ 0)
  if bytes.length = r.rest.length then Edit.refuse (Fault.unterminatedString r.position)
  match Utf8.decode bytes with
  | .error e => Edit.refuse (Fault.notUtf8 r.position e)
  | .ok s =>
    set (r.skip (bytes.length + 1))
    return s

/-- So many four-byte numbers. -/
def singlesOf : Nat → Edit Reader (List Single)
  | 0 => return []
  | count + 1 => do return (← single) :: (← singlesOf count)

/-- Numbers after their count. -/
def singles : Edit Reader (List Single) := do
  let count ← length
  let r ← get
  if r.remaining < count * 4 then Edit.refuse (Fault.tooFewFloats count)
  singlesOf count

/-- Reads a field. -/
def read : ReadStep → Edit Reader ReadValue
  | .int16 => .int16 <$> int16
  | .int32 => .int32 <$> int32
  | .single => .single <$> single
  | .bool => .bool <$> bool
  | .length => .length <$> length
  | .string => .string <$> string
  | .singles => .singles <$> singles

end Reader

end MapDocument
