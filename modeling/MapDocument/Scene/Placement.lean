import MapDocument.Node.Leaf
import MapDocument.Node.Record
import MapDocument.Journal
/-!
# Scene — placements

Where and how an instance of a model stands in the map.
-/

namespace MapDocument

/-- Position, orientation and size. -/
structure Transform where
  position : Vec3
  orientation : Quaternion
  scale : Single
deriving DecidableEq

instance : Record Transform where
  name := "Transform"
  fields := [field "pos" Vec3.zero, field "quat" Quaternion.identity, field "scale" (1 : Single)]
  split t := (t.position, t.orientation, t.scale, ())
  join | (position, orientation, scale, ()) => ⟨position, orientation, scale⟩

instance : Inspect Transform where
  findings t :=
    Findings.noteIf (t.scale.equals .zero) .warn "scale is zero, the object will be invisible"

/-- A placed instance of a model. -/
structure StaticActor where
  name : Identifier
  isStatic : Bool
  transform : Transform
deriving DecidableEq

instance : Record StaticActor where
  name := "StaticActor"
  fields := [field "name" Identifier.empty, field "is_static" true,
    field "transform" (Record.initial : Transform)]
  split a := (a.name, a.isStatic, a.transform, ())
  join | (name, isStatic, transform, ()) => ⟨name, isStatic, transform⟩

/-- The instance is turned, however little. -/
def StaticActor.isRotated (a : StaticActor) : Bool := !a.transform.orientation.isIdentity

instance : Inspect StaticActor where
  findings a :=
    Findings.noteIf a.name.isEmpty .warn "actor has no name" ++
    Findings.under "transform" (Inspect.findings a.transform)

end MapDocument
