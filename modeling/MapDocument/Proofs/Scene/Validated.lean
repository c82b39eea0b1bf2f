import MapDocument.Proofs.Scene.Derivation
import MapDocument.Proofs.Scene.Reload
import MapDocument.Proofs.TypeCode
/-!
# Scene — what validation guarantees to the encoder

The report on a map and its binary form walk through the tree independently of
each other. A map that was loaded, and on which the report has no error, is
refused by the second walk for four reasons only: a vertex array without
vertices, a name with a zero character, a derived shape that is not finite, and
something that is too long to be counted.
-/

namespace MapDocument

namespace MapChunk

variable {m : MapChunk}

/-! ## Reasons -/

/-- A vertex array without vertices that a model of the map draws. -/
def EmptyArray (m : MapChunk) (a : VertexArray) : Prop := ∃ e ∈ m.embeddedModels, e.EmptyArray a

/-- A name in the map that has a zero character. -/
def ZeroName (m : MapChunk) (name : Identifier) : Prop :=
  name ∈ m.manifest.names ∧ '\x00' ∈ name.text.toList

/-- A part of a shape that is derived for a model of the map, which is not finite. -/
def InfinitePart (m : MapChunk) (xs : List Single) : Prop :=
  ∃ e ∈ m.embeddedModels, e.InfinitePart xs

/-- The length of a list, a buffer or a soup of the map, which is too great. -/
def LongCount (m : MapChunk) (n : Nat) : Prop :=
  Manifest.greatestCount < n ∧ n ∈ m.manifest.counts ∨ ∃ e ∈ m.embeddedModels, e.LongSoup n

/-- What the binary form can be refused for. -/
def Blames (m : MapChunk) (fault : Fault) : Prop :=
  (∃ a, m.EmptyArray a ∧ (a.Stray fault ∨ fault = .emptyMesh)) ∨
    (∃ name, m.ZeroName name ∧ fault = .zeroInString name.text) ∨
    (∃ xs, m.InfinitePart xs ∧ fault = .notFinite xs) ∨ ∃ n, m.LongCount n ∧ fault = .tooLong n

/-! ## The binary form -/

/-- The report on a map has no error when there is none in what it is about. -/
theorem harmless_of_report (h : m.report.hasError = false) :
    ∀ e ∈ m.embeddedModels, (Inspect.findings e).Harmless := by
  have hall : (Inspect.findings m).Harmless := Journal.hasError_record.1 h
  obtain ⟨hfirst, -⟩ := Findings.harmless_append.1 hall
  obtain ⟨hfirst, -⟩ := Findings.harmless_append.1 hfirst
  obtain ⟨hfirst, -⟩ := Findings.harmless_append.1 hfirst
  obtain ⟨-, hmodels⟩ := Findings.harmless_append.1 hfirst
  exact Findings.harmless_indexed.1 (Findings.harmless_under.1 hmodels)

/-- The manifest holds two of the reasons. -/
theorem blames_of_manifest {fault : Fault} (h : m.manifest.Blames fault) : m.Blames fault := by
  rcases h with ⟨name, hname, hzero, hfault⟩ | ⟨n, hn, hlong, hfault⟩
  · exact .inr (.inl ⟨name, ⟨hname, hzero⟩, hfault⟩)
  · exact .inr (.inr (.inr ⟨n, .inl ⟨hlong, hn⟩, hfault⟩))

/-- The manifest of a map is to blame when that of one of its parts is. -/
theorem blames_manifest_iff {fault : Fault} :
    m.manifest.Blames fault ↔
      (Manifest.greatestCount < m.embeddedModels.length ∧
          fault = .tooLong m.embeddedModels.length ∨
        ∃ e ∈ m.embeddedModels, e.manifest.Blames fault) ∨
      (Manifest.list ImportedModel.manifest m.importedModels).Blames fault ∨
      (Manifest.list (fun _ => .empty) m.waterPlanes).Blames fault ∨
      (Manifest.list (fun _ => .empty) m.pointLights).Blames fault := by
  rw [manifest, Manifest.blames_append, Manifest.blames_append, Manifest.blames_append,
    Manifest.blames_list, or_assoc, or_assoc]

/-- A map fails for what its models derive, and for its manifest. -/
theorem blames_iff {fault : Fault} :
    m.Blames fault ↔ (∃ e ∈ m.embeddedModels, e.Blames fault) ∨ m.manifest.Blames fault := by
  constructor
  · rintro (⟨a, ⟨e, he, ha⟩, hfault⟩ | ⟨name, ⟨hname, hzero⟩, hfault⟩ | ⟨xs, ⟨e, he, hxs⟩, hfault⟩ |
      ⟨n, ⟨hlong, hn⟩ | ⟨e, he, hn⟩, hfault⟩)
    · exact .inl ⟨e, he, .inl ⟨a, ha, hfault⟩⟩
    · exact .inr (.inl ⟨name, hname, hzero, hfault⟩)
    · exact .inl ⟨e, he, .inr (.inr (.inl ⟨xs, hxs, hfault⟩))⟩
    · exact .inr (.inr ⟨n, hn, hlong, hfault⟩)
    · exact .inl ⟨e, he, .inr (.inr (.inr ⟨n, hn, hfault⟩))⟩
  · rintro (⟨e, he, ⟨a, ha, hfault⟩ | hmanifest | ⟨xs, hxs, hfault⟩ | ⟨n, hn, hfault⟩⟩ | hmanifest)
    · exact .inl ⟨a, ⟨e, he, ha⟩, hfault⟩
    · have hall : m.manifest.Blames fault := blames_manifest_iff.2 (.inl (.inr ⟨e, he, hmanifest⟩))
      exact blames_of_manifest hall
    · exact .inr (.inr (.inl ⟨xs, ⟨e, he, hxs⟩, hfault⟩))
    · exact .inr (.inr (.inr ⟨n, .inr ⟨e, he, hn⟩, hfault⟩))
    · exact blames_of_manifest hmanifest

/-- **The binary form of a map without errors is refused for these reasons.** -/
theorem failsFor (h : Node.Loaded m) (hreport : m.report.hasError = false) :
    FailsFor (Node.encode m) m.Blames := by
  obtain ⟨-, hembedded, himported, hwater, hlights, -⟩ :=
    Record.loadedAll h fun f hf => (reloads_fields f hf).encoded
  have hsound := harmless_of_report hreport
  have hmodels : FailsFor (Node.encode m.embeddedModels) fun fault =>
      (Manifest.greatestCount < m.embeddedModels.length ∧
          fault = .tooLong m.embeddedModels.length) ∨
        ∃ e ∈ m.embeddedModels, e.Blames fault :=
    Node.failsFor_list fun e he => e.failsFor (hembedded.item e he) (hsound e he)
  have hmetadata : FailsFor (Node.encode m.metadata) fun _ => False := .never ⟨_, rfl⟩
  have hfields :=
    Field.failsFor_cons (f := field "metadata" (Record.initial : Metadata)) hmetadata <|
    Field.failsFor_cons (f := field "embedded_models" ([] : List EmbeddedModel)) hmodels <|
    Field.failsFor_cons (f := field "imported_models" ([] : List ImportedModel))
      (Node.Plain.failsFor (α := List ImportedModel) himported) <|
    Field.failsFor_cons (f := field "water_planes" ([] : List WaterPlane))
      (Node.Plain.failsFor (α := List WaterPlane) hwater) <|
    Field.failsFor_cons (f := field "point_lights" ([] : List PointLight))
      (Node.Plain.failsFor (α := List PointLight) hlights) <|
    Field.failsFor_nil ()
  refine hfields.congr fun fault => ?_
  rw [blames_iff, blames_manifest_iff]
  constructor
  · rintro (hnever | (hlong | hmodels) | himported | hwater | hlights | hnever)
    · exact hnever.elim
    · exact .inr (.inl (.inl hlong))
    · exact .inl hmodels
    · exact .inr (.inr (.inl himported))
    · exact .inr (.inr (.inr (.inl hwater)))
    · exact .inr (.inr (.inr (.inr hlights)))
    · exact (Manifest.blames_empty.1 hnever).elim
  · -- the manifest of a model is looked at with the model, and is in that of the map as well
    rintro (hmodels | (hlong | ⟨e, he, hmanifest⟩) | himported | hwater | hlights)
    · exact .inr (.inl (.inr hmodels))
    · exact .inr (.inl (.inl hlong))
    · exact .inr (.inl (.inr ⟨e, he, .inr (.inl hmanifest)⟩))
    · exact .inr (.inr (.inl himported))
    · exact .inr (.inr (.inr (.inl hwater)))
    · exact .inr (.inr (.inr (.inr (.inl hlights))))

/-- The faults of arrays without vertices are about geometry. -/
theorem kind_of_emptyArray {a : VertexArray} {fault : Fault}
    (h : a.Stray fault ∨ fault = .emptyMesh) : fault.kind = .geometry := by
  rcases h with ⟨-, ⟨-, rfl⟩ | ⟨-, -, rfl⟩⟩ | rfl <;> rfl

/-- **What validation guarantees to the encoder.** A map that was loaded and on
which the report has no error has a binary form, unless it draws a vertex array
without vertices, has a name with a zero character, derives a shape that is not
finite, or holds something too long. The first is an error of geometry and the
fault that it is; the others are numbers that do not fit, each with the name, the
numbers or the length in question. The codes of shapes are never refused. -/
theorem encodeBinary_of_report {j : Json} {m : MapChunk} (hload : Node.ofJson j = .ok m)
    (hreport : m.report.hasError = false) :
    ((∃ f, m.encodeBinary = .error f) ↔
      (∃ a, m.EmptyArray a) ∨ (∃ name, m.ZeroName name) ∨ (∃ xs, m.InfinitePart xs) ∨
        ∃ n, m.LongCount n) ∧
    (∀ f, m.encodeBinary = .error f → ∃ e, f = .notEncoded e ∧
      (e.kind = .geometry ∧ (∃ a, m.EmptyArray a ∧ (a.Stray e.fault ∨ e.fault = .emptyMesh)) ∨
        e.kind = .range ∧
          ((∃ name, m.ZeroName name ∧ e.fault = .zeroInString name.text) ∨
            (∃ xs, m.InfinitePart xs ∧ e.fault = .notFinite xs) ∨
            ∃ n, m.LongCount n ∧ e.fault = .tooLong n))) ∧
    ∀ kinds : List ColliderKind, ∃ r,
      kinds.mapM TypeRegistry.confirmShape TypeRegistry.empty =
        .ok (kinds.map ColliderKind.code) r := by
  have hfails := failsFor (Node.loaded_of_ofJson hload) hreport
  refine ⟨?_, fun f hf => ?_, fun kinds => ?_⟩
  · constructor
    · rintro ⟨f, hf⟩
      obtain ⟨e, he, -⟩ := mapError_eq_error.1 hf
      rcases hfails.blamed he with ⟨a, ha, -⟩ | ⟨name, hname, -⟩ | ⟨xs, hxs, -⟩ | ⟨n, hn, -⟩
      · exact .inl ⟨a, ha⟩
      · exact .inr (.inl ⟨name, hname⟩)
      · exact .inr (.inr (.inl ⟨xs, hxs⟩))
      · exact .inr (.inr (.inr ⟨n, hn⟩))
    · intro h
      have hblame : ∃ fault, m.Blames fault := by
        rcases h with ⟨a, ha⟩ | ⟨name, hname⟩ | ⟨xs, hxs⟩ | ⟨n, hn⟩
        · exact ⟨_, .inl ⟨a, ha, .inr rfl⟩⟩
        · exact ⟨_, .inr (.inl ⟨name, hname, rfl⟩)⟩
        · exact ⟨_, .inr (.inr (.inl ⟨xs, hxs, rfl⟩))⟩
        · exact ⟨_, .inr (.inr (.inr ⟨n, hn, rfl⟩))⟩
      obtain ⟨e, he⟩ := hfails.exists_error_iff.2 hblame
      exact ⟨_, mapError_eq_error.2 ⟨e, he, rfl⟩⟩
  · obtain ⟨e, he, rfl⟩ := mapError_eq_error.1 hf
    refine ⟨e, rfl, ?_⟩
    have hkind : e.kind = e.fault.kind := rfl
    rw [hkind]
    rcases hfails.blamed he with ⟨a, ha, hfault⟩ | ⟨name, hname, hfault⟩ | ⟨xs, hxs, hfault⟩ |
      ⟨n, hn, hfault⟩
    · exact .inl ⟨kind_of_emptyArray hfault, a, ha, hfault⟩
    · exact .inr ⟨by rw [hfault]; rfl, .inl ⟨name, hname, hfault⟩⟩
    · exact .inr ⟨by rw [hfault]; rfl, .inr (.inl ⟨xs, hxs, hfault⟩)⟩
    · exact .inr ⟨by rw [hfault]; rfl, .inr (.inr ⟨n, hn, hfault⟩)⟩
  · obtain ⟨r, hr, -⟩ := TypeRegistry.mapM_confirmShape TypeRegistry.ofShapes_empty kinds
    exact ⟨r, hr⟩

/-- A map with one model, which draws a vertex array. -/
def drawing (a : VertexArray) : MapChunk where
  metadata := Record.initial
  embeddedModels := [
    { name := .empty
      renderUnits := [⟨some (.vertexArray a),
        { (Record.initial : Material) with diffuseMap := ⟨"stone", by decide⟩ }⟩]
      staticActors := []
      detailedCollider := false }]
  importedModels := []
  waterPlanes := []
  pointLights := []

theorem emptyArray_drawing {a : VertexArray} (h : a.vertices.values = []) :
    (drawing a).EmptyArray a :=
  ⟨_, List.mem_singleton.2 rfl, ⟨_, List.mem_singleton.2 rfl, rfl⟩, h⟩

/-- An array without anything in it passes validation, and has no binary form. -/
theorem encodeBinary_drawing_nothing :
    Node.ofJson (Node.toJson (drawing ⟨.empty, .empty, .empty⟩)) =
      .ok (drawing ⟨.empty, .empty, .empty⟩) ∧
    (drawing ⟨.empty, .empty, .empty⟩).report.hasError = false ∧
    ∃ f, (drawing ⟨.empty, .empty, .empty⟩).encodeBinary = .error f := by
  have hload : Node.ofJson (Node.toJson (drawing ⟨.empty, .empty, .empty⟩)) =
      .ok (drawing ⟨.empty, .empty, .empty⟩) := toOption_eq_some.1 (by decide +kernel)
  have hreport : (drawing ⟨.empty, .empty, .empty⟩).report.hasError = false := by decide +kernel
  exact ⟨hload, hreport, (encodeBinary_of_report hload hreport).1.2
    (.inl ⟨_, emptyArray_drawing rfl⟩)⟩

/-- One that has texture coordinates passes validation too, although its streams
do not agree. -/
theorem texcoordCount_drawing_stray :
    ¬ ∀ (j : Json) (m : MapChunk) (e : Error), Node.ofJson j = .ok m →
      m.report.hasError = false → m.encodeBinary = .error (.notEncoded e) →
      ∀ floats vertices, e.fault ≠ .texcoordCount floats vertices := by
  intro hnever
  have hload : Node.ofJson (Node.toJson (drawing ⟨.empty, ⟨[.zero]⟩, .empty⟩)) =
      .ok (drawing ⟨.empty, ⟨[.zero]⟩, .empty⟩) := toOption_eq_some.1 (by decide +kernel)
  have hreport : (drawing ⟨.empty, ⟨[.zero]⟩, .empty⟩).report.hasError = false := by decide +kernel
  have hencode : ∃ e, (drawing ⟨.empty, ⟨[.zero]⟩, .empty⟩).encodeBinary = .error (.notEncoded e) ∧
      e.fault = .texcoordCount 1 0 := ⟨_, rfl, rfl⟩
  obtain ⟨e, he, hfault⟩ := hencode
  exact hnever _ _ e hload hreport he 1 0 hfault

end MapChunk

end MapDocument
