import MapDocument.FloatingPoint.Basic
/-!
# JSON — values

A JSON value as the rest of the library sees it: whole numbers stay apart
from the others, and an object keeps its keys in the order they came in.
-/

namespace MapDocument

/-- A JSON number. Whole numbers written without a point or an exponent are
kept exactly as long as eight bytes hold them. -/
inductive JsonNumber
  | integer (n : Int)
  | real (x : Double)
deriving DecidableEq

/-- A JSON value. -/
inductive Json
  | null
  | bool (b : Bool)
  | number (n : JsonNumber)
  | string (s : String)
  | array (items : List Json)
  | object (members : List (String × Json))

instance : Inhabited Json := ⟨.null⟩

/-- The sorts of JSON values. -/
inductive JsonKind
  | null
  | bool
  | number
  | string
  | array
  | object
deriving DecidableEq, Repr

/-- The word for a sort of value. -/
def JsonKind.name : JsonKind → String
  | .null => "null"
  | .bool => "bool"
  | .number => "number"
  | .string => "string"
  | .array => "array"
  | .object => "object"

namespace JsonNumber

/-- The number as a floating-point number. -/
def toDouble : JsonNumber → Double
  | integer n => .ofInt n
  | real x => x

/-- A whole number that eight signed bytes hold. -/
def toInt? : JsonNumber → Option Int
  | integer n => if -0x8000000000000000 ≤ n ∧ n < 0x8000000000000000 then some n else none
  | real _ => none

/-- A whole number that eight unsigned bytes hold. -/
def toNat? : JsonNumber → Option Nat
  | integer n => if 0 ≤ n ∧ n < 0x10000000000000000 then some n.toNat else none
  | real _ => none

end JsonNumber

namespace Json

/-- The sort of a value. -/
def kind : Json → JsonKind
  | null => .null
  | bool _ => .bool
  | number _ => .number
  | string _ => .string
  | array _ => .array
  | object _ => .object

/-- A four-byte number, widened; the values without a written form become null. -/
def ofSingle (x : Single) : Json :=
  if x.isFinite then number (.real x.convert) else null

/-- A whole number. -/
def ofInt (n : Int) : Json := number (.integer n)

/-- The members of an object with `key` bound to `value`: in its old place if
it was bound before, and at the end otherwise. -/
def insertMember (key : String) (value : Json) : List (String × Json) → List (String × Json)
  | [] => [(key, value)]
  | (k, v) :: rest =>
    if k = key then (key, value) :: rest else (k, v) :: insertMember key value rest

end Json

end MapDocument
