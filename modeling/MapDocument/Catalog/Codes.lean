import MapDocument.Catalog.Basic
/-!
# Catalog — the codes of the shapes

The registry that binds the code of every shape to its type.
-/

namespace MapDocument

/-- The type of a shape. -/
def ColliderKind.type : ColliderKind → NodeType
  | sphere => .sphere
  | aabb => .aabb
  | triangle => .triangle
  | triangleSoup => .triangleSoup

/-- All shapes. -/
def ColliderKind.all : List ColliderKind := [.sphere, .aabb, .triangle, .triangleSoup]

/-- The registry in which the shapes are bound to their codes. -/
def TypeRegistry.standard : TypeRegistry :=
  ⟨ColliderKind.all.map fun kind => (kind.code, kind.type.path)⟩

end MapDocument
