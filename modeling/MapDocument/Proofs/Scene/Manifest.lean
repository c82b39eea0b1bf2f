import MapDocument.Proofs.Journal
import MapDocument.Proofs.Node.Manifest
import MapDocument.Proofs.Scene.Regular
/-!
# Scene — the manifests of a map

The names and counts that the nodes of a map have to write, and the proof
that a loaded node in which no error was found is refused for nothing else.
Models whose geometry lives in the map are left out, as they write the shapes
that they derive.
-/

namespace MapDocument

/-! ## Plain nodes -/

instance : Node.Plain RectMesh fun _ => .empty := .ofFields
instance : Node.Plain Transform fun _ => .empty := .ofFields
instance : Node.Plain WaterPlane fun _ => .empty := .ofFields
instance : Node.Plain PointLight fun _ => .empty := .ofFields

/-- What has to be written of a height grid is the count of its samples. -/
def HeightGrid.manifest (g : HeightGrid) : Manifest := .count g.heights.values.length

instance : Node.Plain HeightGrid HeightGrid.manifest := .ofFields

/-- And that of a vertex array are the counts of its streams. -/
def VertexArray.manifest (a : VertexArray) : Manifest :=
  .count a.vertices.values.length ++ .count a.texcoords.values.length ++
    .count a.normals.values.length

instance : Node.Plain VertexArray VertexArray.manifest := .ofFields

/-- The maps of a surface are named. -/
def Material.manifest (m : Material) : Manifest :=
  .name m.diffuseMap ++ .name m.roughnessMap ++ .name m.metallicMap

instance : Node.Plain Material Material.manifest := .ofFields

/-- Instances are named. -/
def StaticActor.manifest (a : StaticActor) : Manifest := .name a.name

instance : Node.Plain StaticActor StaticActor.manifest := .ofFields

/-- What has to be written of an imported model. -/
def ImportedModel.manifest (m : ImportedModel) : Manifest :=
  .name m.resource ++ .list StaticActor.manifest m.staticActors

instance : Node.Plain ImportedModel ImportedModel.manifest := .ofFields

/-! ## Render units -/

/-- What has to be written of the source of a mesh. -/
def MeshSource.manifest : MeshSource → Manifest
  | rect _ => .empty
  | heightGrid g => g.manifest
  | vertexArray a => a.manifest

/-- A source is as plain as its candidates are. -/
theorem MeshSource.failsFor {s : MeshSource} (h : Node.Loaded (some s)) :
    FailsFor (Node.encode (some s)) s.manifest.Blames := by
  have hvalue : Node.Loaded (Choice.split s).2 := h.held
  refine Variant.failsFor (by decide) ?_
  cases s with
  | rect r => exact Node.Plain.failsFor (α := RectMesh) hvalue
  | heightGrid g => exact Node.Plain.failsFor (α := HeightGrid) hvalue
  | vertexArray a => exact Node.Plain.failsFor (α := VertexArray) hvalue

/-- What has to be written of a render unit. -/
def RenderUnit.manifest (u : RenderUnit) : Manifest :=
  (match u.mesh with
    | some s => s.manifest
    | none => .empty) ++ u.material.manifest

/-- A render unit without errors has a mesh. -/
theorem RenderUnit.exists_mesh {u : RenderUnit} (h : (Inspect.findings u).Harmless) :
    ∃ s, u.mesh = some s ∧ (Inspect.findings s).Harmless := by
  obtain ⟨mesh?, material⟩ := u
  have hmesh : (Inspect.findings mesh?).Harmless :=
    Findings.harmless_under.1 (Findings.harmless_append.1 h).1
  cases mesh? with
  | some s => exact ⟨s, rfl, hmesh⟩
  | none => exact absurd rfl (Findings.harmless_note.1 hmesh)

/-- **A render unit without errors fails for nothing but its manifest.** -/
theorem RenderUnit.failsFor {u : RenderUnit} (h : Node.Loaded u)
    (hsound : (Inspect.findings u).Harmless) : FailsFor (Node.encode u) u.manifest.Blames := by
  obtain ⟨s, hs, -⟩ := exists_mesh hsound
  obtain ⟨mesh?, material⟩ := u
  obtain rfl : mesh? = some s := hs
  obtain ⟨hmesh, hmaterial, -⟩ := Record.loadedAll_of_regular h
  have hfields := Field.failsFor_cons (f := field "mesh" (some (MeshSource.rect Record.initial)))
    (MeshSource.failsFor hmesh) <|
    Field.failsFor_cons (f := field "material" (Record.initial : Material))
      (Node.Plain.failsFor (α := Material) hmaterial) <|
    Field.failsFor_nil ()
  exact hfields.congr (by simp [manifest])

/-! ## Models and maps -/

/-- What has to be written of an embedded model, apart from the shapes that are derived. -/
def EmbeddedModel.manifest (m : EmbeddedModel) : Manifest :=
  .name m.name ++ .list RenderUnit.manifest m.renderUnits ++
    .list StaticActor.manifest m.staticActors

/-- What has to be written of a map, apart from the shapes that are derived. -/
def MapChunk.manifest (m : MapChunk) : Manifest :=
  .list EmbeddedModel.manifest m.embeddedModels ++ .list ImportedModel.manifest m.importedModels ++
    .list (fun _ => .empty) m.waterPlanes ++ .list (fun _ => .empty) m.pointLights

end MapDocument
