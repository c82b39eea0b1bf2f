import MapDocument.Geometry.Collider
/-!
# Geometry — meshes

A mesh is a list of triangles as three flat streams that run side by side:
positions, texture coordinates and normals. Meshes are bounded together by
a box, or, where an instance may be rotated, by a sphere around the origin.
-/

namespace MapDocument

/-- One corner of a triangle of a mesh. -/
structure MeshVertex where
  position : Vec3
  texcoord : Vec2
  normal : Vec3
deriving DecidableEq

/-- Triangles as flat streams of positions, texture coordinates and normals. -/
structure Mesh where
  vertices : List Single
  texcoords : List Single
  normals : List Single
deriving DecidableEq

namespace Mesh

/-- The mesh without triangles. -/
def empty : Mesh := ⟨[], [], []⟩

/-- The mesh with one more corner. -/
def push (m : Mesh) (v : MeshVertex) : Mesh :=
  ⟨m.vertices ++ v.position.toList, m.texcoords ++ v.texcoord.toList, m.normals ++ v.normal.toList⟩

/-- The mesh of corners, three to a triangle. -/
def ofCorners (corners : List MeshVertex) : Mesh where
  vertices := corners.flatMap (·.position.toList)
  texcoords := corners.flatMap (·.texcoord.toList)
  normals := corners.flatMap (·.normal.toList)

/-- No positions. -/
def isEmpty (m : Mesh) : Bool := m.vertices.isEmpty

/-- Number of corners. -/
def vertexCount (m : Mesh) : Nat := m.vertices.length / 3

/-- The streams hold whole triangles and agree on the number of corners. -/
def validate (m : Mesh) : Except Error Unit :=
  if m.vertices.length % 9 ≠ 0 then
    .error (Fault.vertexCount m.vertices.length)
  else if m.texcoords.length ≠ m.vertexCount * 2 then
    .error (Fault.texcoordCount m.texcoords.length m.vertexCount)
  else if m.normals.length ≠ m.vertices.length then
    .error (Fault.normalCount m.normals.length m.vertices.length)
  else .ok ()

/-- The positions of the corners. -/
def points (m : Mesh) : List Vec3 := pointsOf m.vertices

/-- The result of bounding, which fails where there was nothing to bound. -/
def bounded {α : Type} : Option α → Except Error α
  | some shape => .ok shape
  | none => .error Fault.emptyMesh

/-- The smallest box around the mesh. -/
def box (m : Mesh) : Except Error Aabb := do
  m.validate
  bounded (Aabb.ofPoints? m.points)

/-- The sphere around the mean of the corners. -/
def sphere (m : Mesh) : Except Error Sphere := do
  m.validate
  bounded (Sphere.ofPoints? m.points)

/-- The triangles of the mesh. -/
def soup (m : Mesh) : Except Error TriangleSoup := do
  m.validate
  TriangleSoup.ofVertices m.vertices

/-- Equality of the values in every place of every stream. -/
def equals (m n : Mesh) : Bool :=
  FloatBuffer.equals ⟨m.vertices⟩ ⟨n.vertices⟩ && FloatBuffer.equals ⟨m.texcoords⟩ ⟨n.texcoords⟩ &&
    FloatBuffer.equals ⟨m.normals⟩ ⟨n.normals⟩

/-- The box grown by the boxes of meshes. -/
def growBox (shape : Aabb) : List Mesh → Except Error Aabb
  | [] => .ok shape
  | m :: rest => do growBox (shape.containing (← m.box)) rest

/-- The sphere grown by the spheres of meshes. -/
def growSphere (shape : Sphere) : List Mesh → Except Error Sphere
  | [] => .ok shape
  | m :: rest => do growSphere (shape.containing (← m.sphere)) rest

/-- The shape around several meshes. A box around something that may be
rotated is no bound, so a sphere around the origin takes its place. -/
def bound (rotating : Bool) : List Mesh → Except Error BoundingVolume
  | [] => .error Fault.noMeshes
  | first :: rest =>
    if rotating then do
      let shape ← growSphere (← first.sphere) rest
      return .sphere shape.recentered
    else do
      let shape ← growBox (← first.box) rest
      return .aabb shape

end Mesh

/-! ## Quads -/

/-- The corners of the two triangles `a b c` and `a c d` of a quad. -/
def triangulateQuad {α : Type} (a b c d : α) : List α := [a, b, c, a, c, d]

/-- Texture coordinates of a triangulated quad whose corners are top-left,
bottom-left, bottom-right and top-right. -/
def quadTexcoords : List Vec2 := triangulateQuad ⟨0, 1⟩ ⟨0, 0⟩ ⟨1, 0⟩ ⟨1, 1⟩

end MapDocument
