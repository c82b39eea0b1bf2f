import MapDocument.Geometry.RectMesh
import MapDocument.Geometry.HeightGrid
import MapDocument.Geometry.VertexArray
import MapDocument.Node.Variant
import MapDocument.Scene.Surface
/-!
# Scene — render units

One mesh drawn with one material. The mesh comes from a rectangle, a
height grid or a vertex array.
-/

namespace MapDocument

/-- Where the mesh of a render unit comes from. -/
inductive MeshSource
  | rect (r : RectMesh)
  | heightGrid (g : HeightGrid)
  | vertexArray (a : VertexArray)
deriving DecidableEq

namespace MeshSource

instance : Choice MeshSource where
  candidates := [candidate "Rect" RectMesh, candidate "HeightGrid" HeightGrid,
    candidate "VertexArray" VertexArray]
  split
    | rect r => ⟨⟨0, by decide⟩, r⟩
    | heightGrid g => ⟨⟨1, by decide⟩, g⟩
    | vertexArray a => ⟨⟨2, by decide⟩, a⟩
  join
    | ⟨⟨0, _⟩, r⟩ => rect r
    | ⟨⟨1, _⟩, g⟩ => heightGrid g
    | ⟨⟨2, _⟩, a⟩ => vertexArray a
  join_split s := by cases s <;> rfl
  split_join
    | ⟨⟨0, _⟩, _⟩ => rfl
    | ⟨⟨1, _⟩, _⟩ => rfl
    | ⟨⟨2, _⟩, _⟩ => rfl

instance : Inspect MeshSource where
  findings
    | rect r => Inspect.findings r
    | heightGrid g => Inspect.findings g
    | vertexArray a => Inspect.findings a

/-- The triangles of the source. -/
def buildMesh : MeshSource → Except Error Mesh
  | rect r => r.buildMesh
  | heightGrid g => g.buildMesh
  | vertexArray a => a.buildMesh

end MeshSource

/-- One mesh drawn with one material. -/
structure RenderUnit where
  mesh : Option MeshSource
  material : Material
deriving DecidableEq

instance : Record RenderUnit where
  name := "RenderUnit"
  fields := [field "mesh" (some (MeshSource.rect Record.initial)), field "material" Record.initial]
  split u := (u.mesh, u.material, ())
  join | (mesh, material, ()) => ⟨mesh, material⟩

/-- The triangles of the unit. -/
def RenderUnit.buildMesh (u : RenderUnit) : Except Error Mesh :=
  match u.mesh with
  | some source => source.buildMesh
  | none => .error Fault.noMesh

instance : Inspect RenderUnit where
  findings u :=
    Findings.under "mesh" (Inspect.findings u.mesh) ++
    Findings.under "material" (Inspect.findings u.material)

end MapDocument
