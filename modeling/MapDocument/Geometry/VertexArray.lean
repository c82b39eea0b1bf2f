import MapDocument.Geometry.Mesh
import MapDocument.Journal
/-!
# Geometry — vertex arrays

Meshes given vertex by vertex, as the three streams of a mesh.
-/

namespace MapDocument

/-- The streams of a mesh as they were authored, which need not agree. -/
structure VertexArray where
  vertices : FloatBuffer
  texcoords : FloatBuffer
  normals : FloatBuffer
deriving DecidableEq

instance : Record VertexArray where
  name := "VertexArray"
  fields := [field "vertices" FloatBuffer.empty, field "texcoords" FloatBuffer.empty,
    field "normals" FloatBuffer.empty]
  split a := (a.vertices, a.texcoords, a.normals, ())
  join | (vertices, texcoords, normals, ()) => ⟨vertices, texcoords, normals⟩

namespace VertexArray

/-- The streams of a mesh. -/
def ofMesh (m : Mesh) : VertexArray := ⟨⟨m.vertices⟩, ⟨m.texcoords⟩, ⟨m.normals⟩⟩

/-- The mesh of the streams, whether they agree or not. -/
def toMesh (a : VertexArray) : Mesh := ⟨a.vertices.values, a.texcoords.values, a.normals.values⟩

/-- The mesh of the streams, if they agree. -/
def buildMesh (a : VertexArray) : Except Error Mesh := do
  a.toMesh.validate
  return a.toMesh

/-- The corners of one side of a box, seen from outside from the top-left on,
as choices of the greater coordinate on each axis, and its normal. -/
structure BoxSide where
  corners : List (Bool × Bool × Bool)
  normal : Vec3

/-- The sides of a box. -/
def boxSides : List BoxSide :=
  let side (a b c d : Bool × Bool × Bool) (normal : Vec3) : BoxSide :=
    ⟨triangulateQuad a b c d, normal⟩
  [side (false, true, true) (false, false, true) (true, false, true) (true, true, true) .unitZ,
   side (true, true, true) (true, false, true) (true, false, false) (true, true, false) .unitX,
   side (true, true, false) (true, false, false) (false, false, false) (false, true, false)
     (-.unitZ),
   side (false, true, false) (false, false, false) (false, false, true) (false, true, true)
     (-.unitX),
   side (false, true, false) (false, true, true) (true, true, true) (true, true, false) .unitY,
   side (false, false, true) (false, false, false) (true, false, false) (true, false, true)
     (-.unitY)]

/-- The closed box between two opposite corners, with flat normals that point outward. -/
def ofBox (a b : Vec3) : VertexArray :=
  let low := a.min b
  let high := a.max b
  let corner : Bool × Bool × Bool → Vec3 := fun (x, y, z) =>
    ⟨if x then high.x else low.x, if y then high.y else low.y, if z then high.z else low.z⟩
  ofMesh (Mesh.ofCorners (boxSides.flatMap fun side =>
    List.zipWith (fun c t => ⟨corner c, t, side.normal⟩) side.corners quadTexcoords))

instance : Inspect VertexArray where
  findings a :=
    let floats := a.vertices.values.length
    let vertices := floats / 3
    let texcoords := a.texcoords.values.length
    let normals := a.normals.values.length
    if floats = 0 then Findings.note .warn "vertex array is empty"
    else
      Findings.noteIf (floats % 9 ≠ 0) .error
        s!"{floats} vertex floats is not a multiple of 9 (three points of three floats)" ++
      Findings.noteIf (texcoords ≠ vertices * 2) .error
        s!"{texcoords} texcoord floats, expected {vertices * 2} for {vertices} vertices" ++
      Findings.noteIf (normals ≠ floats) .error s!"{normals} normal floats, expected {floats}"

end VertexArray

end MapDocument
