import MapDocument.Proofs.Journal.Places
import MapDocument.Scene.Chunk
/-!
# Scene — the report of a map

Every node of a map that judges its own content is judged, and nothing else
stands in the report. `report_placed` gives the report of a map note by note:
each is one that a node of the map has when it is judged by itself, and stands
at the place of that node.
-/

namespace MapDocument

/-! ## The nodes that are judged -/

/-- A node of a map that judges its own content. -/
inductive Judged
  | metadata (x : Metadata)
  | embeddedModel (x : EmbeddedModel)
  | importedModel (x : ImportedModel)
  | mesh (x : Option MeshSource)
  | material (x : Material)
  | staticActor (x : StaticActor)
  | transform (x : Transform)
  | waterPlane (x : WaterPlane)
  | pointLight (x : PointLight)

/-- The notes a node has about itself when it is judged. -/
def Judged.notes : Judged → List Note
  | metadata x => (Inspect.findings x).notes
  | embeddedModel x => (Inspect.findings x).notes
  | importedModel x => (Inspect.findings x).notes
  | mesh x => (Inspect.findings x).notes
  | material x => (Inspect.findings x).notes
  | staticActor x => (Inspect.findings x).notes
  | transform x => (Inspect.findings x).notes
  | waterPlane x => (Inspect.findings x).notes
  | pointLight x => (Inspect.findings x).notes

open Places (groups items)

/-- The nodes of an actor, each at its place below the actor. -/
def StaticActor.judged (a : StaticActor) : Places Judged :=
  ([], .staticActor a) :: groups [("transform", [([], .transform a.transform)])]

/-- The nodes of a unit. -/
def RenderUnit.judged (u : RenderUnit) : Places Judged :=
  groups [("mesh", [([], .mesh u.mesh)]), ("material", [([], .material u.material)])]

/-- The nodes of an embedded model. -/
def EmbeddedModel.judged (m : EmbeddedModel) : Places Judged :=
  ([], .embeddedModel m) :: groups [("render_units", items RenderUnit.judged m.renderUnits),
    ("static_actors", items StaticActor.judged m.staticActors)]

/-- The nodes of an imported model. -/
def ImportedModel.judged (m : ImportedModel) : Places Judged :=
  ([], .importedModel m) :: groups [("static_actors", items StaticActor.judged m.staticActors)]

/-- The nodes of a map. -/
def MapChunk.judged (m : MapChunk) : Places Judged :=
  groups [("metadata", [([], .metadata m.metadata)]),
    ("embedded_models", items EmbeddedModel.judged m.embeddedModels),
    ("imported_models", items ImportedModel.judged m.importedModels),
    ("water_planes", items (fun w => [([], .waterPlane w)]) m.waterPlanes),
    ("point_lights", items (fun l => [([], .pointLight l)]) m.pointLights)]

/-! ## Places of the nodes -/

theorem StaticActor.distinct_judged (a : StaticActor) : a.judged.Distinct := by
  refine Places.Distinct.self (Places.distinct_groups (by simp) ?_) _
  simp [Places.distinct_singleton]

theorem RenderUnit.distinct_judged (u : RenderUnit) : u.judged.Distinct := by
  refine Places.distinct_groups (by simp) ?_
  simp [Places.distinct_singleton]

theorem EmbeddedModel.distinct_judged (m : EmbeddedModel) : m.judged.Distinct := by
  refine Places.Distinct.self (Places.distinct_groups (by simp) ?_) _
  simp [Places.distinct_items, RenderUnit.distinct_judged, StaticActor.distinct_judged]

theorem ImportedModel.distinct_judged (m : ImportedModel) : m.judged.Distinct := by
  refine Places.Distinct.self (Places.distinct_groups (by simp) ?_) _
  simp [Places.distinct_items, StaticActor.distinct_judged]

/-- **No two nodes of a map are at one place.** -/
theorem MapChunk.distinct_judged (m : MapChunk) : m.judged.Distinct := by
  refine Places.distinct_groups (by simp) ?_
  simp [Places.distinct_singleton, Places.distinct_items, EmbeddedModel.distinct_judged,
    ImportedModel.distinct_judged]

/-! ## Findings about the nodes -/

section Findings

open Findings (Accounts Inside inside_note inside_noteIf accounts_list)

theorem Metadata.accounts (m : Metadata) :
    Accounts Judged.notes (Inspect.findings m) [([], .metadata m)] :=
  (inside_noteIf _ _ _).self rfl

/-- A source of meshes has no nodes inside. -/
theorem MeshSource.inside (s : MeshSource) : Inside Judged.notes (Inspect.findings s) [] := by
  cases s with
  | rect r => exact (inside_noteIf _ _ _).append (inside_noteIf _ _ _)
  | heightGrid g =>
    exact ((inside_note _ _).ite (inside_noteIf _ _ _)).append (inside_noteIf _ _ _)
  | vertexArray a =>
    exact (inside_note _ _).ite
      (((inside_noteIf _ _ _).append (inside_noteIf _ _ _)).append (inside_noteIf _ _ _))

theorem accounts_mesh (s : Option MeshSource) :
    Accounts Judged.notes (Inspect.findings s) [([], .mesh s)] := by
  have hinside : Inside Judged.notes (Inspect.findings s) [] := by
    cases s with
    | none => exact inside_note _ _
    | some s => exact s.inside
  exact hinside.self rfl

theorem Material.accounts (m : Material) :
    Accounts Judged.notes (Inspect.findings m) [([], .material m)] := by
  have hinside : Inside Judged.notes (Inspect.findings m) [] :=
    ((inside_noteIf _ _ _).append (inside_noteIf _ _ _)).append (inside_noteIf _ _ _)
  exact hinside.self rfl

theorem RenderUnit.accounts (u : RenderUnit) :
    Accounts Judged.notes (Inspect.findings u) u.judged := by
  have hinside := ((accounts_mesh u.mesh).under "mesh").append (u.material.accounts.under "material")
  exact hinside.only rfl

theorem Transform.accounts (t : Transform) :
    Accounts Judged.notes (Inspect.findings t) [([], .transform t)] :=
  (inside_noteIf _ _ _).self rfl

theorem StaticActor.accounts (a : StaticActor) :
    Accounts Judged.notes (Inspect.findings a) a.judged := by
  have hinside := (inside_noteIf a.name.isEmpty .warn "actor has no name").append
    (a.transform.accounts.under "transform")
  exact hinside.self rfl

/-- What a model without instances has to be told is about the model. -/
theorem inside_actorFindings (actors : List StaticActor) :
    Inside Judged.notes (actorFindings actors) [] :=
  inside_noteIf _ _ _

theorem EmbeddedModel.accounts (m : EmbeddedModel) :
    Accounts Judged.notes (Inspect.findings m) m.judged := by
  have hinside : Inside Judged.notes (Inspect.findings m)
      [("render_units", items RenderUnit.judged m.renderUnits),
        ("static_actors", items StaticActor.judged m.staticActors)] :=
    ((((inside_noteIf _ _ _).append (inside_noteIf _ _ _)).append
      (inside_actorFindings m.staticActors)).append
      ((accounts_list RenderUnit.accounts m.renderUnits).under "render_units")).append
      ((accounts_list StaticActor.accounts m.staticActors).under "static_actors")
  exact hinside.self rfl

theorem ImportedModel.accounts (m : ImportedModel) :
    Accounts Judged.notes (Inspect.findings m) m.judged := by
  have hinside : Inside Judged.notes (Inspect.findings m)
      [("static_actors", items StaticActor.judged m.staticActors)] :=
    ((inside_noteIf _ _ _).append (inside_actorFindings m.staticActors)).append
      ((accounts_list StaticActor.accounts m.staticActors).under "static_actors")
  exact hinside.self rfl

theorem WaterPlane.accounts (w : WaterPlane) :
    Accounts Judged.notes (Inspect.findings w) [([], .waterPlane w)] := by
  have hinside : Inside Judged.notes (Inspect.findings w) [] :=
    (inside_noteIf _ _ _).append (inside_noteIf _ _ _)
  exact hinside.self rfl

theorem PointLight.accounts (l : PointLight) :
    Accounts Judged.notes (Inspect.findings l) [([], .pointLight l)] :=
  (inside_noteIf _ _ _).self rfl

/-- What was found about a map are the own notes of its nodes. -/
theorem MapChunk.accounts (m : MapChunk) :
    Accounts Judged.notes (Inspect.findings m) m.judged := by
  have hinside := ((((m.metadata.accounts.under "metadata").append
    ((accounts_list EmbeddedModel.accounts m.embeddedModels).under "embedded_models")).append
    ((accounts_list ImportedModel.accounts m.importedModels).under "imported_models")).append
    ((accounts_list WaterPlane.accounts m.waterPlanes).under "water_planes")).append
    ((accounts_list PointLight.accounts m.pointLights).under "point_lights")
  exact hinside.only rfl

end Findings

/-! ## The report -/

namespace MapChunk

/-- **The report is complete and exact.** Its notes, at the places given by the titles
that lead to them, are the own notes of the nodes of the map, each at the place of its
node, of which no two are the same; and below the root it has no journal without a note. -/
theorem report_placed (m : MapChunk) :
    m.report.placed = m.judged.flatMap (fun (path, node) => node.notes.map (path, ·)) ∧
      (m.judged.map Prod.fst).Nodup ∧ ∀ j ∈ m.report.inner, j.isEmpty = false := by
  have hreport : m.report = .mk "map" (Inspect.findings m).notes (Inspect.findings m).children := rfl
  refine ⟨?_, m.distinct_judged, ?_⟩
  · rw [hreport, Journal.placed]
    exact m.accounts.placed
  · rw [hreport, Journal.inner]
    exact m.accounts.pruned

/-- A map whose second light lights nothing, and whose only model has nothing. -/
def dim : MapChunk :=
  ⟨Record.initial, [Record.initial], [], [], [Record.initial, ⟨⟨1, 1, 1⟩, Vec3.zero, 0⟩]⟩

/-- Both are told, at their places. -/
theorem report_placed_dim :
    (["point_lights", "index 1"], ⟨.warn, "max distance 0 lights nothing"⟩) ∈ dim.report.placed ∧
    (["embedded_models", "index 0"], ⟨.warn, "model has no name"⟩) ∈ dim.report.placed := by
  rw [dim.report_placed.1]
  decide

end MapChunk

end MapDocument
