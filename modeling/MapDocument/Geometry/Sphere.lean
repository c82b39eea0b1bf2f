import MapDocument.Geometry.Vector
import MapDocument.Node.Leaf
import MapDocument.Node.Record
/-!
# Geometry — spheres

Spheres around points and around other spheres.
-/

namespace MapDocument

/-- A sphere. -/
structure Sphere where
  center : Vec3
  radius : Single
deriving DecidableEq

namespace Sphere

/-- The sum of vectors, from the left. -/
def sumOf (points : List Vec3) : Vec3 := points.foldl (· + ·) Vec3.zero

/-- The mean of points. -/
def centroid (points : List Vec3) : Vec3 :=
  sumOf points / (FloatingPoint.ofNat points.length : Single)

/-- The greatest of the squared distances from a center. -/
def greatestSquare (center : Vec3) (points : List Vec3) : Single :=
  (points.map fun p => (p - center).squaredLength).foldl FloatingPoint.max .zero

/-- The sphere around the mean of the points that reaches the farthest of
them, if there are any. It need not be the smallest. -/
def ofPoints? (points : List Vec3) : Option Sphere :=
  if points.isEmpty then none
  else
    let center := centroid points
    some ⟨center, (greatestSquare center points).sqrt⟩

/-- The smallest sphere that encloses two spheres. -/
def containing (s other : Sphere) : Sphere :=
  let (a, c) := (s.center, s.radius)
  let (b, d) := (other.center, other.radius)
  let rel := b - a
  let dist := rel.length
  if (dist + d).le c then s
  else if (dist + c).le d then other
  else ⟨(a + b + rel / dist * (d - c)) / (2 : Single), (c + d + dist) / 2⟩

/-- The smallest sphere around the origin that encloses a sphere. -/
def recentered (s : Sphere) : Sphere := ⟨Vec3.zero, s.center.length + s.radius⟩

/-- Share of the radius, and length, by which a point may lie outside. -/
def tolerance : Single := 1e-5

/-- Whether a point lies inside, but for rounding. -/
def containsPoint (s : Sphere) (p : Vec3) : Bool :=
  (p - s.center).length.le (s.radius * (1 + tolerance) + tolerance)

end Sphere

instance : Record Sphere where
  name := "Sphere"
  fields := [field "center" Vec3.zero, field "radius" (1 : Single)]
  split s := (s.center, s.radius, ())
  join | (center, radius, ()) => ⟨center, radius⟩

end MapDocument
