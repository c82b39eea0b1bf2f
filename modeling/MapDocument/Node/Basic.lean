import MapDocument.Edit
/-!
# Nodes — what every element of a map tree can do

A node has a default, a text form that it can be loaded from, and a binary
form. The binary form is only ever written; whoever plays the map reads it.
-/

namespace MapDocument

/-- Anything that can be placed in a map tree. -/
class Node (α : Type) where
  /-- The value a fresh node has. -/
  initial : α
  /-- The value after a node is put back to its default. -/
  reset : α → α
  /-- The text form. -/
  toJson : α → Json
  /-- Takes on the value of a text form. -/
  load : Json → Edit α Unit
  /-- The binary form. -/
  encode : α → Except Error Bytes
  /-- Equality of content, by which the two zeros are equal and a pattern that
  is no number differs from all. -/
  equals : α → α → Bool

/-- A fresh node loaded from a text form. -/
def Node.ofJson {α : Type} [Node α] (j : Json) : Except Error α :=
  Edit.eval (Node.load j) Node.initial

/-! ## Reading values of a text form -/

namespace Json

/-- The members of an object. -/
def asObject (what : String) : Json → Except Error (List (String × Json))
  | object members => .ok members
  | j => .error (Fault.notObject what j.kind)

/-- The items of an array. -/
def asArray (what : String) : Json → Except Error (List Json)
  | array items => .ok items
  | j => .error (Fault.notArray what j.kind)

/-- A finite four-byte number. -/
def asSingle : Json → Except Error Single
  | number n =>
    let x : Single := n.toDouble.convert
    if x.isFinite then .ok x else .error (Fault.tooGreatForSingle n.toDouble)
  | j => .error (Fault.notNumber j.kind)

/-- The value of a whole number that eight signed bytes hold. -/
def toInt? : Json → Option Int
  | number n => n.toInt?
  | _ => none

/-- The value of a whole number that eight unsigned bytes hold. -/
def toNat? : Json → Option Nat
  | number n => n.toNat?
  | _ => none

/-- A four-byte integer. -/
def asInt32 (j : Json) : Except Error Int32 :=
  match j.toInt? with
  | none => .error (Fault.notInteger j)
  | some n =>
    if -0x80000000 ≤ n ∧ n < 0x80000000 then .ok (Int32.ofInt n)
    else .error (Fault.tooGreatForInt32 n)

/-- A truth value. -/
def asBool : Json → Except Error Bool
  | bool b => .ok b
  | j => .error (Fault.notBool j.kind)

/-- A string. -/
def asString : Json → Except Error String
  | string s => .ok s
  | j => .error (Fault.notString j.kind)

/-- An array of exactly so many four-byte numbers. -/
def asSingles (what : String) (count : Nat) (j : Json) : Except Error (List Single) := do
  let items ← j.asArray what
  if items.length = count then items.mapM asSingle
  else .error (Fault.notCount what count items.length)

end Json

end MapDocument
