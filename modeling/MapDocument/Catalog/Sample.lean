import MapDocument.Node.Leaf
import MapDocument.Node.Variant
import MapDocument.Node.Record
/-!
# Catalog — small nodes

Nodes that no map holds. Each shows one thing a node can do on its own:
put itself right after a load, write more than its fields, have no fields,
judge itself; and the two choices are made of them and of leaves.
-/

namespace MapDocument

/-- A lamp, whose power is never negative after a load. -/
structure Lamp where
  color : Vec3
  power : Single
  on : Bool
deriving DecidableEq

instance : Record Lamp where
  name := "Lamp"
  fields := [field "color" (⟨1, 1, 1⟩ : Vec3), field "power" (5 : Single), field "on" true]
  split l := (l.color, l.power, l.on, ())
  join | (color, power, on, ()) => ⟨color, power, on⟩
  settle l := if l.power.lt .zero then { l with power := .zero } else l

/-- A number that is written after a mark. -/
structure Tagged where
  id : Int32
deriving DecidableEq

instance : Record Tagged where
  name := "Tagged"
  fields := [field "id" (9 : Int32)]
  split t := (t.id, ())
  join | (id, ()) => ⟨id⟩
  encode t := do return Bytes.ofBool true ++ (← Node.encode t.id)

/-- A record without fields. -/
structure Nothing where
deriving DecidableEq

instance : Record Nothing where
  name := "Nothing"
  fields := []
  split _ := ()
  join _ := {}

/-- A number that ought to be positive. -/
structure Positive where
  n : Int32
deriving DecidableEq

instance : Record Positive where
  name := "Positive"
  fields := [field "n" (1 : Int32)]
  split p := (p.n, ())
  join | (n, ()) => ⟨n⟩

instance : Inspect Positive where
  findings p := Findings.noteIf (p.n ≤ 0) .error s!"{p.n.toInt} is not positive"

/-- A name that ought to be set. -/
structure Label where
  text : Identifier
deriving DecidableEq

instance : Record Label where
  name := "Label"
  fields := [field "text" Identifier.empty]
  split l := (l.text, ())
  join | (text, ()) => ⟨text⟩

instance : Inspect Label where
  findings l := Findings.noteIf l.text.isEmpty .warn "label is empty"

/-- One number or the other. -/
inductive Scalar
  | float (x : Single)
  | int (n : Int32)
deriving DecidableEq

instance : Choice Scalar where
  candidates := [candidate "Float" Single, candidate "Int" Int32]
  split
    | .float x => ⟨⟨0, by decide⟩, x⟩
    | .int n => ⟨⟨1, by decide⟩, n⟩
  join
    | ⟨⟨0, _⟩, x⟩ => .float x
    | ⟨⟨1, _⟩, n⟩ => .int n
  join_split s := by cases s <;> rfl
  split_join
    | ⟨⟨0, _⟩, _⟩ => rfl
    | ⟨⟨1, _⟩, _⟩ => rfl

/-- One node that judges itself or the other. -/
inductive Checked
  | positive (p : Positive)
  | label (l : Label)
deriving DecidableEq

instance : Choice Checked where
  candidates := [candidate "Positive" Positive, candidate "Label" Label]
  split
    | .positive p => ⟨⟨0, by decide⟩, p⟩
    | .label l => ⟨⟨1, by decide⟩, l⟩
  join
    | ⟨⟨0, _⟩, p⟩ => .positive p
    | ⟨⟨1, _⟩, l⟩ => .label l
  join_split s := by cases s <;> rfl
  split_join
    | ⟨⟨0, _⟩, _⟩ => rfl
    | ⟨⟨1, _⟩, _⟩ => rfl

instance : Inspect Checked where
  findings
    | .positive p => Inspect.findings p
    | .label l => Inspect.findings l

end MapDocument
