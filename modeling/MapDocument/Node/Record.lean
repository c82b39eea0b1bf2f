import MapDocument.Node.Basic
/-!
# Nodes — records

A record is a node made of named fields. It is described by its fields in
order and by the two ways between a record and the tuple of its fields;
text form, loading and binary form all follow from that. The order of the
fields is the order of the keys in the text form and of the bytes in the
binary form.
-/

namespace MapDocument

/-- A field of a record: its name, its type, and the value it has where a text
form does not mention it. -/
structure Field where
  name : String
  Value : Type
  [node : Node Value]
  initial : Value

attribute [instance] Field.node

/-- The field with a given name and default. -/
def field {α : Type} [Node α] (name : String) (initial : α) : Field := { name, Value := α, initial }

namespace Field

/-- The values of fields, as nested pairs. -/
def Values : List Field → Type
  | [] => Unit
  | f :: fs => f.Value × Values fs

/-- The default of every field. -/
def initials : (fs : List Field) → Values fs
  | [] => ()
  | f :: fs => (f.initial, initials fs)

/-- The text forms of values, under the names of their fields. -/
def toMembers : (fs : List Field) → Values fs → List (String × Json)
  | [], _ => []
  | f :: fs, (x, xs) => (f.name, Node.toJson x) :: toMembers fs xs

/-- Takes on the value of a member, or the default if there is none. -/
def load (f : Field) : Option Json → Edit f.Value Unit
  | some j => Edit.within (.field f.name) (Node.load j)
  | none => set f.initial

/-- Loads the fields one after the other. -/
def loadAll (members : List (String × Json)) : (fs : List Field) → Edit (Values fs) Unit
  | [] => pure ()
  | f :: fs => fun (x, xs) =>
    match f.load (members.lookup f.name) x with
    | .error e x => .error e (x, xs)
    | .ok _ x =>
      match loadAll members fs xs with
      | .error e xs => .error e (x, xs)
      | .ok _ xs => .ok () (x, xs)

/-- The binary forms of values, one after the other. -/
def encodeAll : (fs : List Field) → Values fs → Except Error Bytes
  | [], _ => .ok []
  | f :: fs, (x, xs) => do
    let bytes ← Error.locating (.field f.name) (Node.encode x)
    return bytes ++ (← encodeAll fs xs)

/-- Equality of content in every field. -/
def equalsAll : (fs : List Field) → Values fs → Values fs → Bool
  | [], _, _ => true
  | _ :: fs, (x, xs), (y, ys) => Node.equals x y && equalsAll fs xs ys

end Field

/-- A type that is a record of named fields. -/
class Record (σ : Type) where
  /-- The name of the type in messages. -/
  name : String
  /-- The fields in order. -/
  fields : List Field
  /-- The values of the fields. -/
  split : σ → Field.Values fields
  /-- The record with given values. -/
  join : Field.Values fields → σ
  /-- What is put right after a load. -/
  settle : σ → σ := id
  /-- The binary form, by default that of the fields. -/
  encode : σ → Except Error Bytes := fun s => Field.encodeAll fields (split s)
  join_split : ∀ s, join (split s) = s := by intro s; rfl
  split_join : ∀ xs, split (join xs) = xs := by intro xs; rfl

namespace Record

variable {σ : Type} [Record σ]

/-- The record whose fields have their defaults. -/
def initial : σ := join (Field.initials (fields σ))

/-- The names of the fields in order. -/
def fieldNames (σ : Type) [Record σ] : List String := (fields σ).map Field.name

/-- The binary form of the fields, whatever the record writes itself. -/
def encodeFields (s : σ) : Except Error Bytes := Field.encodeAll (fields σ) (split s)

/-- Loads the fields into a record that is left half loaded if one of them fails. -/
def loadFields (members : List (String × Json)) : Edit σ Unit := fun s =>
  match Field.loadAll members (fields σ) (split s) with
  | .ok _ xs => .ok () (settle (join xs))
  | .error e xs => .error e (join xs)

/-- Loads a record. Unknown keys are passed over, and missing ones reset their field. -/
def load (j : Json) : Edit σ Unit := do
  let members ← Edit.check (j.asObject (name σ))
  Edit.staged (loadFields members)

end Record

instance (priority := low) Record.toNode {σ : Type} [Record σ] : Node σ where
  initial := Record.initial
  reset _ := Record.initial
  toJson s := .object (Field.toMembers (Record.fields σ) (Record.split s))
  load := Record.load
  encode := Record.encode
  equals a b := Field.equalsAll (Record.fields σ) (Record.split a) (Record.split b)

end MapDocument
