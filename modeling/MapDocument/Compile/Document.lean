import MapDocument.Compile.Failure
import MapDocument.Scene.Chunk
import MapDocument.Settings
/-!
# Compilation — from text to artifact

A document is parsed, validated, encoded and compressed. The settings have a
say in what a report shows and in how hard the compression tries, but not in
whether a document compiles, nor in what its artifact holds.
-/

namespace MapDocument.MapChunk

/-- The map that a text describes. -/
def ofText (text : String) : Except CompileFailure MapChunk :=
  match Json.ofText? text with
  | none => .error .notJson
  | some json => (Node.ofJson json).mapError .notMap

/-- The normalized text of a map. -/
def toText (m : MapChunk) : String := (Node.toJson m).pretty

/-- The report on a map, if there is no error in it. The report on errors shows
them whatever the threshold. -/
def validate (threshold : Severity) (m : MapChunk) : Except CompileFailure Journal :=
  let report := m.report
  if report.hasError then .error (.invalid (report.render (threshold.min .error)).1) else .ok report

/-- The binary form of a map. -/
def encodeBinary (m : MapChunk) : Except CompileFailure Bytes :=
  (Node.encode m).mapError .notEncoded

/-- The artifact of a map. -/
def toArtifact (settings : Settings) (m : MapChunk) : Except CompileFailure Bytes := do
  let _ ← m.validate settings.reportThreshold
  let binary ← m.encodeBinary
  (Artifact.compress settings.compressionLevel binary).mapError .notCompressed

/-- The artifact of the map that a text describes. -/
def compileText (settings : Settings) (text : String) : Except CompileFailure Bytes := do
  (← ofText text).toArtifact settings

end MapDocument.MapChunk
