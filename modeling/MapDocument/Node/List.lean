import MapDocument.Node.Basic
import MapDocument.Bytes.Fields
/-!
# Nodes — lists

A list of nodes of one type. Its text form is an array; its binary form is
the number of items and then the items. Loading builds all items anew, so
what the list held before does not matter.
-/

namespace MapDocument

variable {α : Type} [Node α]

/-- Fresh nodes loaded from text forms, the first of which has the given index. -/
def Node.ofItems (index : Nat) : List Json → Except Error (List α)
  | [] => .ok []
  | j :: rest => do
    let x ← Error.locating (.index index) (Node.ofJson j)
    return x :: (← ofItems (index + 1) rest)

/-- Binary forms one after the other, the first of which has the given index. -/
def Node.encodeItems (index : Nat) : List α → Except Error Bytes
  | [] => .ok []
  | x :: rest => do
    let bytes ← Error.locating (.index index) (Node.encode x)
    return bytes ++ (← encodeItems (index + 1) rest)

/-- Equality of content in every place. -/
def Node.equalsItems : List α → List α → Bool
  | [], [] => true
  | x :: xs, y :: ys => Node.equals x y && equalsItems xs ys
  | _, _ => false

instance Node.list : Node (List α) where
  initial := []
  reset _ := []
  toJson xs := .array (xs.map Node.toJson)
  load j := Edit.assign (j.asArray "list" >>= Node.ofItems 0)
  encode xs := do
    let count ← Bytes.ofLength? xs.length
    return count ++ (← Node.encodeItems 0 xs)
  equals := Node.equalsItems

end MapDocument
