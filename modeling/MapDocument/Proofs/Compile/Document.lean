import MapDocument.Compile.Document
import MapDocument.Proofs.Artifact
import MapDocument.Proofs.Journal
/-!
# Compilation — the stages of a document

A document goes from one stage to the next as long as nothing is wrong with it,
and what is wrong is found by the first stage that can find it. The settings
choose what a report shows and how an artifact is compressed, so neither whether
there is an artifact nor what it holds depends on them.
-/

namespace MapDocument.MapChunk

variable {settings : Settings} {threshold : Severity} {text : String} {m : MapChunk}
  {f : CompileFailure}

/-! ## Stages -/

/-- A text is of a map when it is JSON and the map can be loaded. -/
theorem ofText_of_json {j : Json} (h : Json.ofText? text = some j) :
    ofText text = (Node.ofJson j).mapError .notMap := by
  rw [ofText, h]

/-- A text that is of no map is either not JSON or JSON of something else. -/
theorem ofText_eq_error (h : ofText text = .error f) : f = .notJson ∨ ∃ e, f = .notMap e := by
  unfold ofText at h
  split at h
  · cases h
    exact .inl rfl
  · obtain ⟨e, -, rfl⟩ := mapError_eq_error.1 h
    exact .inr ⟨e, rfl⟩

/-- A map is valid when the report on it has no error. -/
theorem validate_eq_ok {report : Journal} :
    m.validate threshold = .ok report ↔ m.report.hasError = false ∧ m.report = report := by
  unfold validate
  cases h : m.report.hasError <;> simp [h]

/-- It is refused with what is shown of the report, from errors on at the latest. -/
theorem validate_eq_error :
    m.validate threshold = .error f ↔
      m.report.hasError = true ∧ .invalid (m.report.render (threshold.min .error)).1 = f := by
  unfold validate
  cases h : m.report.hasError <;> simp [h]

/-- A map that is refused has no artifact, for the same reason. -/
theorem toArtifact_of_validate (h : m.validate settings.reportThreshold = .error f) :
    m.toArtifact settings = .error f := bind_eq_error.2 (.inl h)

/-- **There is an artifact of a map** when it is valid, has a binary form, and that
can be compressed. -/
theorem toArtifact_eq_ok {artifact : Bytes} :
    m.toArtifact settings = .ok artifact ↔
      m.report.hasError = false ∧ ∃ binary, Node.encode m = .ok binary ∧
        Artifact.compress settings.compressionLevel binary = .ok artifact := by
  constructor
  · intro h
    obtain ⟨report, hvalid, h⟩ := bind_eq_ok.1 h
    obtain ⟨binary, hencode, h⟩ := bind_eq_ok.1 h
    exact ⟨(validate_eq_ok.1 hvalid).1, binary, mapError_eq_ok.1 hencode, mapError_eq_ok.1 h⟩
  · rintro ⟨hvalid, binary, hencode, hcompress⟩
    refine bind_eq_ok.2 ⟨_, validate_eq_ok.2 ⟨hvalid, rfl⟩, ?_⟩
    exact bind_eq_ok.2 ⟨binary, mapError_eq_ok.2 hencode, mapError_eq_ok.2 hcompress⟩

/-- **There is none** for the first of these that is not so. -/
theorem toArtifact_eq_error :
    m.toArtifact settings = .error f ↔
      (m.report.hasError = true ∧
        .invalid (m.report.render (settings.reportThreshold.min .error)).1 = f) ∨
      m.report.hasError = false ∧
        ((∃ e, Node.encode m = .error e ∧ .notEncoded e = f) ∨
          ∃ binary, Node.encode m = .ok binary ∧
            ∃ e, Artifact.compress settings.compressionLevel binary = .error e ∧
              .notCompressed e = f) := by
  constructor
  · intro h
    rcases bind_eq_error.1 h with h | ⟨report, hvalid, h⟩
    · exact .inl (validate_eq_error.1 h)
    · refine .inr ⟨(validate_eq_ok.1 hvalid).1, ?_⟩
      rcases bind_eq_error.1 h with h | ⟨binary, hencode, h⟩
      · exact .inl (mapError_eq_error.1 h)
      · exact .inr ⟨binary, mapError_eq_ok.1 hencode, mapError_eq_error.1 h⟩
  · rintro (h | ⟨hvalid, h⟩)
    · exact bind_eq_error.2 (.inl (validate_eq_error.2 h))
    · refine bind_eq_error.2 (.inr ⟨_, validate_eq_ok.2 ⟨hvalid, rfl⟩, bind_eq_error.2 ?_⟩)
      rcases h with hencode | ⟨binary, hencode, hcompress⟩
      · exact .inl (mapError_eq_error.2 hencode)
      · exact .inr ⟨binary, mapError_eq_ok.2 hencode, mapError_eq_error.2 hcompress⟩

/-- The report of a map that is refused shows every error. -/
theorem errors_shown_of_invalid {shown : String}
    (h : m.toArtifact settings = .error (.invalid shown)) :
    ∃ lines : List (Nat × String), shown = Journal.joined lines ∧
      List.Sublist (m.report.errors.map Journal.noteText) (lines.map Prod.snd) := by
  rcases toArtifact_eq_error.1 h with ⟨-, hshown⟩ | ⟨-, ⟨e, -, hfault⟩ | ⟨binary, -, e, -, hfault⟩⟩
  · cases hshown
    exact Journal.errors_shown (settings.reportThreshold.min .error) m.report
  · cases hfault
  · cases hfault

/-- A map is refused for its errors when it has some. -/
theorem toArtifact_invalid_iff :
    (∃ shown, m.toArtifact settings = .error (.invalid shown)) ↔
      ∃ n ∈ m.report.allNotes, n.severity = .error := by
  rw [← Journal.HoldsError, ← Journal.hasError_iff]
  simp [toArtifact_eq_error]

/-- It is refused as one without a binary form when it has no errors and no binary form. -/
theorem toArtifact_notEncoded_iff {e : Error} :
    m.toArtifact settings = .error (.notEncoded e) ↔
      m.report.hasError = false ∧ Node.encode m = .error e := by
  simp [toArtifact_eq_error]

/-! ## Texts -/

/-- A text that is not JSON is not compiled. -/
theorem compileText_of_notJson (h : Json.ofText? text = none) :
    compileText settings text = .error .notJson := by
  rw [compileText, ofText, h]
  rfl

/-- A text of JSON from which no map can be loaded is not compiled. -/
theorem compileText_of_notMap {j : Json} {e : Error} (h : Json.ofText? text = some j)
    (hload : Node.ofJson (α := MapChunk) j = .error e) :
    compileText settings text = .error (.notMap e) := by
  rw [compileText, ofText_of_json h, hload]
  rfl

/-- The text of a map is compiled as the map is. -/
theorem compileText_of_map {j : Json} (h : Json.ofText? text = some j)
    (hload : Node.ofJson j = .ok m) : compileText settings text = m.toArtifact settings := by
  rw [compileText, ofText_of_json h, hload]
  rfl

/-- **An artifact is of a map**, and holds its binary form. -/
theorem compileText_eq_ok {artifact : Bytes} :
    compileText settings text = .ok artifact ↔
      ∃ m binary, ofText text = .ok m ∧ m.report.hasError = false ∧ Node.encode m = .ok binary ∧
        Artifact.compress settings.compressionLevel binary = .ok artifact := by
  rw [compileText, bind_eq_ok]
  constructor
  · rintro ⟨m, hm, h⟩
    obtain ⟨hvalid, binary, hencode, hcompress⟩ := toArtifact_eq_ok.1 h
    exact ⟨m, binary, hm, hvalid, hencode, hcompress⟩
  · rintro ⟨m, binary, hm, hvalid, hencode, hcompress⟩
    exact ⟨m, hm, toArtifact_eq_ok.2 ⟨hvalid, binary, hencode, hcompress⟩⟩

/-- A map that is valid and has a binary form that fits has an artifact of it. -/
theorem exists_toArtifact (settings : Settings) {binary : Bytes} (hvalid : m.report.hasError = false)
    (hencode : Node.encode m = .ok binary) (hfits : binary.length < 0x80000000) :
    ∃ artifact, m.toArtifact settings = .ok artifact ∧
      Artifact.decompress artifact = .ok binary := by
  obtain ⟨artifact, hcompress⟩ := Artifact.exists_compress settings.compressionLevel hfits
  exact ⟨artifact, toArtifact_eq_ok.2 ⟨hvalid, binary, hencode, hcompress⟩,
    Artifact.decompress_of_compress hcompress⟩

/-- **What compiles with some settings compiles with any others**, and to an
artifact of the same content. -/
theorem compileText_of_compileText {settings' : Settings} {artifact : Bytes}
    (h : compileText settings text = .ok artifact) :
    ∃ artifact', compileText settings' text = .ok artifact' ∧
      Artifact.decompress artifact' = Artifact.decompress artifact := by
  obtain ⟨m, binary, hm, hvalid, hencode, hcompress⟩ := compileText_eq_ok.1 h
  -- of the settings, neither the threshold nor the level has a say in these
  obtain ⟨hfits, -⟩ := Artifact.compress_eq_ok.1 hcompress
  obtain ⟨artifact', hcompress'⟩ := Artifact.exists_compress settings'.compressionLevel hfits
  refine ⟨artifact', compileText_eq_ok.2 ⟨m, binary, hm, hvalid, hencode, hcompress'⟩, ?_⟩
  rw [Artifact.decompress_of_compress hcompress', Artifact.decompress_of_compress hcompress]

end MapDocument.MapChunk
