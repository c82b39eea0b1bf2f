import MapDocument.Geometry.Vector
import MapDocument.Node.Leaf
import MapDocument.Node.List
import MapDocument.Node.Record
/-!
# Geometry — triangles

Single triangles, and soups of triangles in no particular order for
detailed collision.
-/

namespace MapDocument

/-- Face normal of a counter-clockwise triangle, as long as twice its area. -/
def triangleCross (p1 p2 p3 : Vec3) : Vec3 := (p2 - p1).cross (p3 - p1)

/-- Lengths up to this one count as no length at all: two to the power of minus 23. -/
def negligibleLength : Single := .ofQuotient false 1 0x800000

/-- The vector of length one in the same direction, or zero if there is none. -/
def Vec3.normalizedOrZero (v : Vec3) : Vec3 :=
  if negligibleLength.lt v.length then v / v.length else zero

/-- Unit face normal of a counter-clockwise triangle, or zero if it has no area. -/
def triangleNormal (p1 p2 p3 : Vec3) : Vec3 := (triangleCross p1 p2 p3).normalizedOrZero

/-- A triangle. -/
structure Triangle where
  p1 : Vec3
  p2 : Vec3
  p3 : Vec3
deriving DecidableEq

/-- Area. -/
def Triangle.area (t : Triangle) : Single := (triangleCross t.p1 t.p2 t.p3).length / 2

instance : Record Triangle where
  name := "Triangle"
  fields := [field "p1" Vec3.zero, field "p2" Vec3.zero, field "p3" Vec3.zero]
  split t := (t.p1, t.p2, t.p3, ())
  join | (p1, p2, p3, ()) => ⟨p1, p2, p3⟩

/-- Triangles in no particular order. -/
structure TriangleSoup where
  triangles : List Triangle
deriving DecidableEq

instance : Record TriangleSoup where
  name := "TriangleSoup"
  fields := [field "triangles" ([] : List Triangle)]
  split s := (s.triangles, ())
  join | (triangles, ()) => ⟨triangles⟩

/-- The points of a flat stream, three numbers each; numbers left over at the end are dropped. -/
def pointsOf : List Single → List Vec3
  | x :: y :: z :: rest => ⟨x, y, z⟩ :: pointsOf rest
  | _ => []

/-- Consecutive triangles of points; points left over at the end are dropped. -/
def trianglesOf : List Vec3 → List Triangle
  | p1 :: p2 :: p3 :: rest => ⟨p1, p2, p3⟩ :: trianglesOf rest
  | _ => []

namespace TriangleSoup

/-- The soup without triangles. -/
def empty : TriangleSoup := ⟨[]⟩

/-- The soup of consecutive triangles of a flat stream, which has to hold whole triangles. -/
def ofVertices (vertices : List Single) : Except Error TriangleSoup :=
  if vertices.length % 9 = 0 then .ok ⟨trianglesOf (pointsOf vertices)⟩
  else .error (Fault.partialTriangles vertices.length)

/-- The triangles of both soups. -/
def append (s t : TriangleSoup) : TriangleSoup := ⟨s.triangles ++ t.triangles⟩

instance : Append TriangleSoup := ⟨append⟩

end TriangleSoup

end MapDocument
