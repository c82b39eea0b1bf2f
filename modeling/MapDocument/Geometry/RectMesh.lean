import MapDocument.Geometry.Mesh
import MapDocument.Journal
/-!
# Geometry — rectangles

A flat rectangle given by its corners in counter-clockwise order, top-left
first. It is made of two faces that share the diagonal from the first to
the third corner.
-/

namespace MapDocument

/-- A rectangle. -/
structure RectMesh where
  p1 : Vec3
  p2 : Vec3
  p3 : Vec3
  p4 : Vec3
  /-- Whether the normals of the two faces are blended along their diagonal. -/
  smooth : Bool
deriving DecidableEq

instance : Record RectMesh where
  name := "RectMesh"
  fields := [field "p1" (⟨-1, 1, 0⟩ : Vec3), field "p2" (⟨-1, -1, 0⟩ : Vec3),
    field "p3" (⟨1, -1, 0⟩ : Vec3), field "p4" (⟨1, 1, 0⟩ : Vec3), field "smooth" false]
  split r := (r.p1, r.p2, r.p3, r.p4, r.smooth, ())
  join | (p1, p2, p3, p4, smooth, ()) => ⟨p1, p2, p3, p4, smooth⟩

namespace RectMesh

/-- Normal of the first face, as long as twice its area. -/
def cross1 (r : RectMesh) : Vec3 := triangleCross r.p1 r.p2 r.p3

/-- Normal of the second face, as long as twice its area. -/
def cross2 (r : RectMesh) : Vec3 := triangleCross r.p1 r.p3 r.p4

/-- A face whose normal has no length has no area. -/
def isFlat (cross : Vec3) : Bool := cross.length.le negligibleLength

/-- Normals of the six corners. -/
def cornerNormals (r : RectMesh) : List Vec3 :=
  let n1 := r.cross1 / r.cross1.length
  let n2 := r.cross2 / r.cross2.length
  if r.smooth then
    let mean := (n1 + n2) * (0.5 : Single)
    [mean, n1, mean, mean, mean, n2]
  else [n1, n1, n1, n2, n2, n2]

/-- The two triangles of the rectangle. -/
def buildMesh (r : RectMesh) : Except Error Mesh :=
  if isFlat r.cross1 || isFlat r.cross2 then .error Fault.flatFace
  else
    let positions := triangulateQuad r.p1 r.p2 r.p3 r.p4
    .ok (Mesh.ofCorners (List.zipWith (fun p (t, n) => ⟨p, t, n⟩) positions
      (quadTexcoords.zip r.cornerNormals)))

/-- What is wrong with one of the faces. -/
def faceFindings (number : Nat) (cross : Vec3) : Findings :=
  Findings.noteIf (isFlat cross) .error s!"face {number} of the rectangle has no area"

instance : Inspect RectMesh where
  findings r := faceFindings 1 r.cross1 ++ faceFindings 2 r.cross2

end RectMesh

end MapDocument
