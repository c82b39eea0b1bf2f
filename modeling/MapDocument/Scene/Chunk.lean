import MapDocument.Scene.Model
import MapDocument.Scene.Surroundings
/-!
# Scene — map chunks

The root of a map document.
-/

namespace MapDocument

/-- The version of the binary form that is written. -/
def currentVersion : Int32 := 1

/-- What a document says about itself. -/
structure Metadata where
  version : Int32
deriving DecidableEq

/-- The binary form is always written in the current version, whatever the
document declares. -/
instance : Record Metadata where
  name := "MapMetadata"
  fields := [field "bin_version" currentVersion]
  split m := (m.version, ())
  join | (version, ()) => ⟨version⟩
  encode _ := .ok (Bytes.ofInt32 currentVersion)

instance : Inspect Metadata where
  findings m :=
    Findings.noteIf (m.version ≠ currentVersion) .warn
      (s!"document declares binary version {m.version.toInt}, " ++
        s!"but version {currentVersion.toInt} will be written")

/-- The root of a map document. -/
structure MapChunk where
  metadata : Metadata
  embeddedModels : List EmbeddedModel
  importedModels : List ImportedModel
  waterPlanes : List WaterPlane
  pointLights : List PointLight
deriving DecidableEq

instance : Record MapChunk where
  name := "MapChunkBuilder"
  fields := [field "metadata" (Record.initial : Metadata),
    field "embedded_models" ([] : List EmbeddedModel),
    field "imported_models" ([] : List ImportedModel),
    field "water_planes" ([] : List WaterPlane), field "point_lights" ([] : List PointLight)]
  split m := (m.metadata, m.embeddedModels, m.importedModels, m.waterPlanes, m.pointLights, ())
  join
    | (metadata, embeddedModels, importedModels, waterPlanes, pointLights, ()) =>
      ⟨metadata, embeddedModels, importedModels, waterPlanes, pointLights⟩

instance : Inspect MapChunk where
  findings m :=
    Findings.under "metadata" (Inspect.findings m.metadata) ++
    Findings.under "embedded_models" (Inspect.findings m.embeddedModels) ++
    Findings.under "imported_models" (Inspect.findings m.importedModels) ++
    Findings.under "water_planes" (Inspect.findings m.waterPlanes) ++
    Findings.under "point_lights" (Inspect.findings m.pointLights)

/-- Everything there is to say about a map. -/
def MapChunk.report (m : MapChunk) : Journal := (Journal.empty "map").record (Inspect.findings m)

end MapDocument
