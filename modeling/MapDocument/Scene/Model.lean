import MapDocument.Scene.RenderUnit
import MapDocument.Scene.Placement
import MapDocument.Node.List
/-!
# Scene — models

Models whose geometry lives in the map, and models that are loaded from
elsewhere when the map is played. The binary form of an embedded model
ends in a shape that bounds its geometry and, if asked for, in all its
triangles; neither is ever part of the text form.
-/

namespace MapDocument

/-- A model whose geometry lives in the map. -/
structure EmbeddedModel where
  name : Identifier
  renderUnits : List RenderUnit
  staticActors : List StaticActor
  detailedCollider : Bool
deriving DecidableEq

namespace EmbeddedModel

/-- Some instance is turned. -/
def hasRotatingActor (m : EmbeddedModel) : Bool := m.staticActors.any StaticActor.isRotated

/-- The meshes of render units, the first of which has the given index. -/
def meshesOf (index : Nat) : List RenderUnit → Except Error (List Mesh)
  | [] => .ok []
  | u :: rest => do
    let mesh ← Error.locating (.field "render_units") (Error.locating (.index index) u.buildMesh)
    return mesh :: (← meshesOf (index + 1) rest)

/-- The meshes of all render units. -/
def buildMeshes (m : EmbeddedModel) : Except Error (List Mesh) := meshesOf 0 m.renderUnits

/-- The triangles of meshes, added to those found so far. -/
def growSoup (soup : TriangleSoup) : List Mesh → Except Error TriangleSoup
  | [] => .ok soup
  | mesh :: rest => do growSoup (soup ++ (← mesh.soup)) rest

/-- The bounding shape and, if asked for, the triangles of the geometry. -/
def deriveColliders (m : EmbeddedModel) : Except Error (BoundingVolume × Option TriangleSoup) := do
  if m.renderUnits.isEmpty then .error (Fault.emptyModel m.name.text)
  else
    let meshes ← m.buildMeshes
    let bounding ← Mesh.bound m.hasRotatingActor meshes
    if m.detailedCollider then return (bounding, some (← growSoup TriangleSoup.empty meshes))
    else return (bounding, none)

/-- The shape that bounds the geometry. -/
def boundingVolume (m : EmbeddedModel) : Except Error BoundingVolume :=
  Prod.fst <$> m.deriveColliders

/-- The fields other than the last, which is replaced by the derived shapes. -/
def encode (m : EmbeddedModel) : Except Error Bytes := do
  let (bounding, soup?) ← m.deriveColliders
  let name ← Error.locating (.field "name") (Node.encode m.name)
  let units ← Error.locating (.field "render_units") (Node.encode m.renderUnits)
  let actors ← Error.locating (.field "static_actors") (Node.encode m.staticActors)
  let bounding ← bounding.encodeTagged
  let soup ← match soup? with
    | some soup => encodeTagged soup
    | none => .ok encodeNoCollider
  return name ++ (units ++ (actors ++ (bounding ++ soup)))

instance : Record EmbeddedModel where
  name := "ModelEmbedded"
  fields := [field "name" Identifier.empty, field "render_units" ([] : List RenderUnit),
    field "static_actors" ([] : List StaticActor), field "detailed_collider" false]
  split m := (m.name, m.renderUnits, m.staticActors, m.detailedCollider, ())
  join
    | (name, renderUnits, staticActors, detailedCollider, ()) =>
      ⟨name, renderUnits, staticActors, detailedCollider⟩
  encode := encode

end EmbeddedModel

/-- What a model without instances has to be told. -/
def actorFindings (actors : List StaticActor) : Findings :=
  Findings.noteIf actors.isEmpty .info "model has no actors and will not appear in the map"

instance : Inspect EmbeddedModel where
  findings m :=
    Findings.noteIf m.name.isEmpty .warn "model has no name" ++
    Findings.noteIf m.renderUnits.isEmpty .error
      "model has no render units and contributes no volume" ++
    actorFindings m.staticActors ++
    Findings.under "render_units" (Inspect.findings m.renderUnits) ++
    Findings.under "static_actors" (Inspect.findings m.staticActors)

/-- A model that is loaded from elsewhere when the map is played. -/
structure ImportedModel where
  resource : Identifier
  staticActors : List StaticActor
  detailedCollider : Bool
deriving DecidableEq

instance : Record ImportedModel where
  name := "ModelImported"
  fields := [field "resource_id" Identifier.empty, field "static_actors" ([] : List StaticActor),
    field "detailed_collider" false]
  split m := (m.resource, m.staticActors, m.detailedCollider, ())
  join
    | (resource, staticActors, detailedCollider, ()) => ⟨resource, staticActors, detailedCollider⟩

instance : Inspect ImportedModel where
  findings m :=
    Findings.noteIf m.resource.isEmpty .error "resource identifier is not defined" ++
    actorFindings m.staticActors ++
    Findings.under "static_actors" (Inspect.findings m.staticActors)

end MapDocument
