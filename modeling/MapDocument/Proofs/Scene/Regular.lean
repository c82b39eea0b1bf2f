import MapDocument.Catalog.Sample
import MapDocument.Proofs.Node.Regular
import MapDocument.Scene.Chunk
/-!
# Scene — the regular types of a map

All types of nodes in a map are regular but three: what a document says
about itself is written in a version of its own, an embedded model writes
shapes that it derives, and a map chunk holds both. A box and a lamp put
themselves right after a load, and a tagged number writes a mark; their
fields are regular all the same.
-/

namespace MapDocument

/-! ## Geometry -/

instance : Node.Regular Sphere := .ofFields
instance : Node.Regular Triangle := .ofFields
instance : Node.Regular TriangleSoup := .ofFields
instance : Node.Regular RectMesh := .ofFields
instance : Node.Regular HeightGrid := .ofFields
instance : Node.Regular VertexArray := .ofFields

instance : Field.Regular (Record.fields Aabb) := by dsimp only [Record.fields]; infer_instance

/-! ## Scenes -/

instance : Node.Regular Material := .ofFields

instance : Candidate.Regular (Choice.candidates MeshSource) := by
  dsimp only [Choice.candidates]; infer_instance

instance : Node.Regular (Option MeshSource) := .ofCandidates
instance : Node.Regular RenderUnit := .ofFields
instance : Node.Regular Transform := .ofFields
instance : Node.Regular StaticActor := .ofFields
instance : Node.Regular ImportedModel := .ofFields
instance : Node.Regular WaterPlane := .ofFields
instance : Node.Regular PointLight := .ofFields

instance : Field.Regular (Record.fields Metadata) := by dsimp only [Record.fields]; infer_instance

instance : Field.Regular (Record.fields EmbeddedModel) := by
  dsimp only [Record.fields]; infer_instance

/-! ## Small nodes -/

instance : Node.Regular Nothing := .ofFields
instance : Node.Regular Positive := .ofFields
instance : Node.Regular Label := .ofFields
instance : Field.Regular (Record.fields Lamp) := by dsimp only [Record.fields]; infer_instance

instance : Field.Regular (Record.fields Tagged) := by dsimp only [Record.fields]; infer_instance

instance : Candidate.Regular (Choice.candidates Scalar) := by
  dsimp only [Choice.candidates]; infer_instance

instance : Candidate.Regular (Choice.candidates Checked) := by
  dsimp only [Choice.candidates]; infer_instance

instance : Node.Regular (Option Scalar) := .ofCandidates
instance : Node.Regular (Option Checked) := .ofCandidates

end MapDocument
