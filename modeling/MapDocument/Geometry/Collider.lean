import MapDocument.Geometry.Box
import MapDocument.Geometry.Sphere
import MapDocument.Geometry.Triangle
import MapDocument.TypeCode
/-!
# Geometry — tagged shapes

Wherever the binary form carries a shape, the code of its type comes
first; a code of its own says that there is no shape.
-/

namespace MapDocument

/-- The shapes that the binary form can carry. -/
inductive ColliderKind
  | sphere
  | aabb
  | triangle
  | triangleSoup
deriving DecidableEq, Repr

/-- The type code of a shape. -/
def ColliderKind.code : ColliderKind → UInt16
  | sphere => 1
  | aabb => 2
  | triangle => 3
  | triangleSoup => 4

/-- A type of shapes that are written after their type code. -/
class Collider (α : Type) extends Node α where
  kind : ColliderKind

instance : Collider Sphere := { kind := .sphere }
instance : Collider Aabb := { kind := .aabb }
instance : Collider Triangle := { kind := .triangle }
instance : Collider TriangleSoup := { kind := .triangleSoup }

/-- A type code in two bytes. -/
def Bytes.ofTypeCode (code : UInt16) : Except Error Bytes := ofInt16? code.toNat

/-- The binary form of a shape after its type code. -/
def encodeTagged {α : Type} [Collider α] (shape : α) : Except Error Bytes := do
  let code ← Bytes.ofTypeCode (Collider.kind α).code
  return code ++ (← Node.encode shape)

/-- What stands in place of a shape where there is none. -/
def encodeNoCollider : Bytes := Bytes.ofInt16 noTypeCode.toInt16

/-- The shape that bounds a model. -/
inductive BoundingVolume
  | sphere (s : Sphere)
  | aabb (box : Aabb)
deriving DecidableEq

/-- The binary form of a bounding shape after its type code. -/
def BoundingVolume.encodeTagged : BoundingVolume → Except Error Bytes
  | sphere s => MapDocument.encodeTagged s
  | aabb box => MapDocument.encodeTagged box

end MapDocument
