import MapDocument.Geometry.Vector
import MapDocument.Node.Leaf
import MapDocument.Node.Record
/-!
# Geometry — axis-aligned boxes

A box is given by two opposite corners and keeps them in order on every
axis, whichever way they were given. A coordinate that is no number gives
way to the other one.
-/

namespace MapDocument

/-- An axis-aligned box. -/
structure Aabb where
  min : Vec3
  max : Vec3
deriving DecidableEq

namespace Aabb

/-- The corners put in order on every axis. -/
def normalize (box : Aabb) : Aabb := ⟨box.min.min box.max, box.min.max box.max⟩

/-- The box between two corners. -/
def ofCorners (a b : Vec3) : Aabb := normalize ⟨a, b⟩

/-- The box grown to include a point. -/
def coverPoint (box : Aabb) (p : Vec3) : Aabb := ⟨box.min.min p, box.max.max p⟩

/-- The smallest box that covers every point, if there are any. -/
def ofPoints? : List Vec3 → Option Aabb
  | [] => none
  | first :: rest => some (rest.foldl coverPoint (ofCorners first first))

/-- The smallest box that covers two boxes. -/
def containing (box other : Aabb) : Aabb :=
  ofCorners (box.min.min other.min) (box.max.max other.max)

/-- Product of the extents. -/
def volume (box : Aabb) : Single :=
  let size := box.max - box.min
  size.x * size.y * size.z

end Aabb

instance : Record Aabb where
  name := "Aabb"
  fields := [field "min" Vec3.zero, field "max" Vec3.zero]
  split box := (box.min, box.max, ())
  join | (min, max, ()) => ⟨min, max⟩
  settle := Aabb.normalize

end MapDocument
