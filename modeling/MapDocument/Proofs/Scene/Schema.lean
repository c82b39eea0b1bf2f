import MapDocument.Proofs.Node.Culprit
import MapDocument.Proofs.Node.Revision
import MapDocument.Proofs.Scene.Reload
/-!
# Scene — the schema of a map

A map is built up from records, lists and one variant, and every default in
it comes back from its text form. So a text form may say more or less than
another and give the same map, and where it gives none, the error leads to
what is wrong with it.
-/

namespace MapDocument

/-- A record of regular fields has defaults that come back if they can be written. -/
theorem Record.Restoring.ofRegular {σ : Type} [Record σ]
    (nodup_names : (Record.fieldNames σ).Nodup := by decide)
    (encodes : (Record.encodeFields (Record.initial : σ)).isOk = true := by decide)
    (fields : Field.Regular (Record.fields σ) := by dsimp only [Record.fields]; infer_instance) :
    Record.Restoring σ :=
  Record.restoring nodup_names encodes fun f hf => (fields.value f hf).reloads.encoded

/-! ## Meshes -/

instance : Node.Schema RectMesh Record.initial := .ofFields .ofRegular
instance : Node.Schema HeightGrid Record.initial := .ofFields .ofRegular
instance : Node.Schema VertexArray Record.initial := .ofFields .ofRegular

instance : (v : Option MeshSource) → Node.Schema (Option MeshSource) v :=
  .ofCandidates (Choice.restoring fun c hc => (Candidate.Regular.value c hc).reloads)

/-! ## Maps -/

instance : Node.Schema Material Record.initial := .ofFields .ofRegular
instance : Node.Schema RenderUnit Record.initial := .ofFields .ofRegular
instance : Node.Schema Transform Record.initial := .ofFields .ofRegular
instance : Node.Schema StaticActor Record.initial := .ofFields .ofRegular
instance : Node.Schema EmbeddedModel Record.initial := .ofFields .ofRegular
instance : Node.Schema ImportedModel Record.initial := .ofFields .ofRegular
instance : Node.Schema WaterPlane Record.initial := .ofFields .ofRegular
instance : Node.Schema PointLight Record.initial := .ofFields .ofRegular
instance : Node.Schema Metadata Record.initial := .ofFields .ofRegular

namespace MapChunk

/-- How a map is built up. -/
instance schema : Node.Schema MapChunk Record.initial :=
  .ofFields (Record.restoring (by decide) (by decide) fun f hf => (reloads_fields f hf).encoded)

/-! ## Text forms of the same map -/

/-- **Forward compatibility**: text forms that differ in keys that are not declared, in the
order of keys, or in defaults that are written out, at whatever depth, give the same map, or
are refused with the same error at the same place. -/
theorem ofJson_eq_of_revised {j j' : Json} (h : schema.Revised j j') :
    (Node.ofJson j : Except Error MapChunk) = Node.ofJson j' :=
  h.sameLoad Node.initial

/-- A map of one model with one render unit, whose mesh is a rectangle. -/
def rectForm (mesh : List (String × Json)) (more : List (String × Json)) : Json :=
  .object (("embedded_models", .array [.object [("render_units",
    .array [.object [("mesh", .object mesh)]])]]) :: more)

/-- The map is the same where the default rectangle is written out, and where a key is
added that no map has. -/
theorem ofJson_eq_of_revised_rect :
    (Node.ofJson (rectForm [("type", .ofInt 0)] []) : Except Error MapChunk) =
      Node.ofJson (rectForm [("type", .ofInt 0), ("data", Node.toJson (Record.initial : RectMesh))]
        [("comment", .null)]) := by
  refine ofJson_eq_of_revised (.trans _ (rectForm [("type", .ofInt 0),
    ("data", Node.toJson (Record.initial : RectMesh))] []) _ (.rel _ _ ?_) (.rel _ _ ?_))
  · -- in the first model, in its first render unit, at the mesh
    refine Record.Revision.field [] [] ⟨1, by decide⟩ ?_
    refine Node.ItemRevision.item [] [] ?_
    refine Record.Revision.field [] [] ⟨1, by decide⟩ ?_
    refine Node.ItemRevision.item [] [] ?_
    refine Record.Revision.field [] [] ⟨0, by decide⟩ ?_
    exact Variant.Revision.default [("type", .ofInt 0)] [] ⟨0, by decide⟩ rfl rfl
  · exact Record.Revision.rearranged (.insert [_] [] .null (by decide))

/-! ## Text forms of no map -/

/-- **An error points at the first culprit.** Its path leads from the text form to a part of it
that is refused on its own, with the same fault and no path: loaded into the default of the
field, of the items of the list, or of the candidate of the variant that the part stands for.
The fields declared before, the items before and the number of the candidate can be loaded,
all along the path. -/
theorem ofJson_eq_error {j : Json} {e : Error}
    (h : (Node.ofJson j : Except Error MapChunk) = .error e) :
    ∃ (β : Type) (_ : Node β) (y : β) (part : Node.Schema β y) (v : Json),
      schema.LeadsTo j e.path part v ∧ j.at? e.path = some v ∧
        Edit.eval (Node.load v) y = .error ⟨e.fault, []⟩ := by
  obtain ⟨β, _, y, part, v, hleads, hv⟩ := schema.culprit_of_error h
  exact ⟨β, _, y, part, v, hleads, hleads.at?_eq_some, hv⟩

/-- A map whose lights are null, and before them a corner of its rectangle. -/
def nullCorner : Json :=
  rectForm [("data", .object [("p2", .null)]), ("type", .ofInt 0)] [("point_lights", .null)]

/-- Where the corner is. -/
def nullCornerPath : List PathStep :=
  [.field "embedded_models", .index 0, .field "render_units", .index 0, .field "mesh",
    .field "data", .field "p2"]

/-- The corner is found to be null, all the way in. -/
theorem ofJson_eq_error_nullCorner :
    (Node.ofJson nullCorner : Except Error MapChunk) =
      .error ⟨.notArray "vec3" .null, nullCornerPath⟩ ∧
    ∃ (β : Type) (_ : Node β) (y : β) (part : Node.Schema β y) (v : Json),
      schema.LeadsTo nullCorner nullCornerPath part v ∧ nullCorner.at? nullCornerPath = some v ∧
        Edit.eval (Node.load v) y = .error ⟨.notArray "vec3" .null, []⟩ :=
  ⟨rfl, ofJson_eq_error (e := ⟨.notArray "vec3" .null, nullCornerPath⟩) rfl⟩

end MapChunk

end MapDocument
