import MapDocument.Compile.File
import MapDocument.Disk.FileTree
import MapDocument.Proofs.Compile.Document
/-!
# Compilation — checking a file and compiling it

Checking a file and compiling it begin alike, whatever the disk does: they
read the file, load the map and validate it. What comes after that in a
compilation can fail too, but with failures of other kinds.

A disk is anything with a state that answers what is asked of it. Nothing is
assumed of its answers.
-/

namespace MapDocument.Compile

variable {σ α β : Type}

/-- What an action on a disk comes to, from a state of the disk. -/
def outcome (action : ExceptT CompileFailure (StateM σ) α) (s : σ) : Except CompileFailure α :=
  (action.run s).1

/-! ## Sequences -/

section Sequences

variable {x : ExceptT CompileFailure (StateM σ) α} {g : α → ExceptT CompileFailure (StateM σ) β}
  {s s' : σ} {f : CompileFailure}

/-- An action goes on from the state that the one before it left behind. -/
theorem run_bind_of_ok {a : α} (h : x.run s = (.ok a, s')) : (x >>= g).run s = (g a).run s' := by
  have hrun : (x >>= g).run s = ExceptT.bindCont g (x.run s).1 (x.run s).2 := rfl
  rw [hrun, h]
  rfl

/-- And does not if that one failed. -/
theorem run_bind_of_error (h : x.run s = (.error f, s')) : (x >>= g).run s = (.error f, s') := by
  have hrun : (x >>= g).run s = ExceptT.bindCont g (x.run s).1 (x.run s).2 := rfl
  rw [hrun, h]
  rfl

/-- Where a sequence comes to something, so does its first action, and it goes on from there. -/
theorem run_bind_eq_ok {b : β} :
    (x >>= g).run s = (.ok b, s') ↔
      ∃ a s'', x.run s = (.ok a, s'') ∧ (g a).run s'' = (.ok b, s') := by
  constructor
  · intro h
    cases hx : x.run s with
    | mk result s'' =>
      cases result with
      | error f =>
        rw [run_bind_of_error hx] at h
        cases h
      | ok a =>
        rw [run_bind_of_ok hx] at h
        exact ⟨a, s'', rfl, h⟩
  · rintro ⟨a, s'', hx, h⟩
    rw [run_bind_of_ok hx, h]

/-- What asks nothing of the disk leaves it as it is. -/
theorem run_inMemory (result : Except CompileFailure α) :
    (inMemory result : ExceptT CompileFailure (StateM σ) α).run s = (result, s) := rfl

/-- What is asked of the disk at a path. -/
theorem run_atPath (path : Path) (action : StateM σ (Except DiskFault α)) (s : σ) :
    (atPath path action).run s = ((action s).1.mapError (.disk path), (action s).2) := rfl

/-- What is asked of it without regard to faults. -/
theorem run_lift (action : StateM σ α) (s : σ) :
    (liftM action : ExceptT CompileFailure (StateM σ) α).run s = (.ok (action s).1, (action s).2) :=
  rfl

end Sequences

/-! ## Failures of the disk -/

/-- An action that fails with nothing but faults of the disk. -/
def FailsOnDisk (action : ExceptT CompileFailure (StateM σ) α) : Prop :=
  ∀ s f, outcome action s = .error f → ∃ path fault, f = .disk path fault

namespace FailsOnDisk

theorem pure (a : α) : FailsOnDisk (Pure.pure a : ExceptT CompileFailure (StateM σ) α) := nofun

theorem throw (path : Path) (fault : DiskFault) :
    FailsOnDisk (MonadExcept.throw (.disk path fault) : ExceptT CompileFailure (StateM σ) α) := by
  intro s f h
  cases h
  exact ⟨path, fault, rfl⟩

theorem lift (action : StateM σ α) :
    FailsOnDisk (liftM action : ExceptT CompileFailure (StateM σ) α) := nofun

theorem atPath (path : Path) (action : StateM σ (Except DiskFault α)) :
    FailsOnDisk (Compile.atPath path action) := by
  intro s f h
  have hmap : ((action s).1).mapError (.disk path) = .error f := h
  obtain ⟨fault, -, rfl⟩ := mapError_eq_error.1 hmap
  exact ⟨path, fault, rfl⟩

/-- A sequence of such actions is one. -/
theorem bind {x : ExceptT CompileFailure (StateM σ) α}
    {g : α → ExceptT CompileFailure (StateM σ) β} (hx : FailsOnDisk x)
    (hg : ∀ a, FailsOnDisk (g a)) : FailsOnDisk (x >>= g) := by
  intro s f h
  cases hrun : x.run s with
  | mk result s' =>
    cases result with
    | ok a =>
      rw [outcome, run_bind_of_ok hrun] at h
      exact hg a s' f h
    | error e =>
      rw [outcome, run_bind_of_error hrun] at h
      cases h
      exact hx s f (by rw [outcome, hrun])

end FailsOnDisk

/-! ## Reading -/

section Files

variable [Disk (StateM σ)] {settings : Settings} {source : Path} {s s' : σ} {m : MapChunk}
  {f : CompileFailure}

/-- What reading a file as text comes to, and the disk after it. -/
def reading (source : Path) (s : σ) : Except DiskFault String × σ :=
  Disk.readText (m := StateM σ) source s

/-- What loading the map in a file comes to, and the disk after it. -/
def loading (source : Path) (s : σ) : Except CompileFailure MapChunk × σ :=
  (readMap (m := StateM σ) source).run s

/-- A file is loaded when it can be read and its text is of a map. -/
theorem loading_eq (source : Path) (s : σ) :
    (∃ fault s', reading source s = (.error fault, s') ∧
      loading source s = (.error (.disk source fault), s')) ∨
    ∃ text s', reading source s = (.ok text, s') ∧ loading source s = (MapChunk.ofText text, s') := by
  have hrun : (atPath source (Disk.readText (m := StateM σ) source)).run s =
      ((reading source s).1.mapError (.disk source), (reading source s).2) := run_atPath _ _ s
  cases hread : reading source s with
  | mk answer s' =>
    rw [hread] at hrun
    cases answer with
    | error fault => exact .inl ⟨fault, s', rfl, run_bind_of_error hrun⟩
    | ok text =>
      refine .inr ⟨text, s', rfl, ?_⟩
      exact (run_bind_of_ok hrun).trans (run_inMemory _)

/-! ## The steps of a compilation -/

/-- The last step of a compilation. -/
def storing (settings : Settings) (source : Path) (artifact : Bytes) :
    ExceptT CompileFailure (StateM σ) Path := do
  match ← (Disk.write (artifactPath settings source) artifact : StateM σ _) with
  | .ok () => return artifactPath settings source
  | .error fault =>
    if settings.keepsText then
      let _ ← (Disk.remove (textPath settings source) : StateM σ _)
    throw (.disk (artifactPath settings source) fault)

/-- The steps of a compilation once there is an artifact. -/
def putting (settings : Settings) (source : Path) (m : MapChunk) (artifact : Bytes) :
    ExceptT CompileFailure (StateM σ) Path := do
  atPath (artifactPath settings source) (Disk.makeParents (artifactPath settings source))
  if settings.keepsText then
    atPath (textPath settings source)
      (Disk.write (textPath settings source) (Utf8.encode m.toText))
  storing settings source artifact

/-- A compilation, up to the artifact and from there on. -/
theorem compileFile_eq (settings : Settings) (source : Path) :
    (compileFile settings source : ExceptT CompileFailure (StateM σ) Path) =
      (do
        let m ← readMap source
        let artifact ← inMemory (m.toArtifact settings)
        putting settings source m artifact) :=
  rfl

/-- What compiling a file comes to, and the disk after it. -/
def compiling (settings : Settings) (source : Path) (s : σ) : Except CompileFailure Path × σ :=
  (compileFile (m := StateM σ) settings source).run s

/-- A file that is not loaded is not compiled, and nothing more is done to the disk. -/
theorem compiling_of_loading_error (h : loading source s = (.error f, s')) :
    compiling settings source s = (.error f, s') :=
  run_bind_of_error h

/-- Nor is one without an artifact. -/
theorem compiling_of_toArtifact_error (h : loading source s = (.ok m, s'))
    (hmap : m.toArtifact settings = .error f) : compiling settings source s = (.error f, s') := by
  refine (run_bind_of_ok h).trans (run_bind_of_error ?_)
  rw [run_inMemory, hmap]

/-- What has an artifact is put on the disk. -/
theorem compiling_of_toArtifact {artifact : Bytes} (h : loading source s = (.ok m, s'))
    (hmap : m.toArtifact settings = .ok artifact) :
    compiling settings source s = (putting settings source m artifact).run s' := by
  rw [compiling, compileFile_eq]
  refine (run_bind_of_ok h).trans (run_bind_of_ok ?_)
  rw [run_inMemory, hmap]

/-- The last steps ask the disk for everything, with or without the text. -/
theorem failsOnDisk_putting (settings : Settings) (source : Path) (m : MapChunk)
    (artifact : Bytes) :
    FailsOnDisk (putting settings source m artifact : ExceptT CompileFailure (StateM σ) Path) := by
  have hstoring :
      FailsOnDisk (storing settings source artifact : ExceptT CompileFailure (StateM σ) Path) := by
    refine FailsOnDisk.bind (.lift _) fun answer => ?_
    cases answer with
    | ok done => exact .pure _
    | error fault =>
      cases settings.keepsText with
      | false => exact .throw _ _
      | true => exact .bind (.lift _) fun _ => .throw _ _
  refine FailsOnDisk.bind (.atPath _ _) fun _ => ?_
  cases settings.keepsText with
  | false => exact hstoring
  | true => exact .bind (.atPath _ _) fun _ => hstoring

/-! ## Checking and compiling -/

/-- What checking a file comes to. -/
def checked (settings : Settings) (source : Path) (s : σ) : Except CompileFailure Journal :=
  outcome (checkFile settings source) s

/-- What compiling a file comes to. -/
def compiled (settings : Settings) (source : Path) (s : σ) : Except CompileFailure Path :=
  outcome (compileFile settings source) s

/-- A file that is not loaded fails both. -/
theorem checked_of_loading_error (settings : Settings) (h : loading source s = (.error f, s')) :
    checked settings source s = .error f ∧ compiled settings source s = .error f :=
  ⟨congrArg Prod.fst (run_bind_of_error h), congrArg Prod.fst (compiling_of_loading_error h)⟩

/-- A file that is loaded is checked by validating its map. -/
theorem checked_of_loading (h : loading source s = (.ok m, s')) :
    checked settings source s = m.validate settings.reportThreshold := by
  unfold checked outcome checkFile
  rw [run_bind_of_ok h, run_inMemory]

/-- It is not compiled if there is no artifact of the map. -/
theorem compiled_of_toArtifact_error (h : loading source s = (.ok m, s'))
    (hmap : m.toArtifact settings = .error f) : compiled settings source s = .error f :=
  congrArg Prod.fst (compiling_of_toArtifact_error h hmap)

/-- And if there is one, nothing but the disk can fail. -/
theorem compiled_of_toArtifact {artifact : Bytes} (h : loading source s = (.ok m, s'))
    (hmap : m.toArtifact settings = .ok artifact) (hf : compiled settings source s = .error f) :
    ∃ path fault, f = .disk path fault := by
  have hrun := congrArg Prod.fst (compiling_of_toArtifact h hmap)
  exact failsOnDisk_putting settings source m artifact s' f (hrun.symm.trans hf)

/-! ## The same failures -/

/-- A failure to read a file, to load the map in it, or to validate the map. -/
def BeforeEncoding (source : Path) (s : σ) (f : CompileFailure) : Prop :=
  (∃ fault, (reading source s).1 = .error fault ∧ f = .disk source fault) ∨
    f = .notJson ∨ (∃ e, f = .notMap e) ∨ ∃ shown, f = .invalid shown

/-- What fails when a file is checked fails in the same way when it is compiled. -/
theorem compiled_of_checked_error (h : checked settings source s = .error f) :
    compiled settings source s = .error f ∧ BeforeEncoding source s f := by
  rcases loading_eq source s with ⟨fault, s', hread, hload⟩ | ⟨text, s', hread, hload⟩
  · obtain ⟨hchecked, hcompiled⟩ := checked_of_loading_error settings hload
    rw [hchecked] at h
    cases h
    exact ⟨hcompiled, .inl ⟨fault, congrArg Prod.fst hread, rfl⟩⟩
  · cases htext : MapChunk.ofText text with
    | error e =>
      rw [htext] at hload
      obtain ⟨hchecked, hcompiled⟩ := checked_of_loading_error settings hload
      rw [hchecked] at h
      cases h
      refine ⟨hcompiled, .inr ?_⟩
      rcases MapChunk.ofText_eq_error htext with h | h
      · exact .inl h
      · exact .inr (.inl h)
    | ok m =>
      rw [htext] at hload
      rw [checked_of_loading hload] at h
      refine ⟨compiled_of_toArtifact_error hload (MapChunk.toArtifact_of_validate h), ?_⟩
      obtain ⟨-, rfl⟩ := MapChunk.validate_eq_error.1 h
      exact .inr (.inr (.inr ⟨_, rfl⟩))

/-- A file that passes the check fails to be compiled for want of a binary form or
of an artifact, or because of the disk, which has given the file already. -/
theorem compiled_of_checked_ok {report : Journal} (h : checked settings source s = .ok report)
    (hf : compiled settings source s = .error f) :
    (∃ e, f = .notEncoded e) ∨ (∃ e, f = .notCompressed e) ∨
      (∃ text, (reading source s).1 = .ok text) ∧ ∃ path fault, f = .disk path fault := by
  rcases loading_eq source s with ⟨fault, s', hread, hload⟩ | ⟨text, s', hread, hload⟩
  · rw [(checked_of_loading_error settings hload).1] at h
    cases h
  · cases htext : MapChunk.ofText text with
    | error e =>
      rw [htext] at hload
      rw [(checked_of_loading_error settings hload).1] at h
      cases h
    | ok m =>
      rw [htext] at hload
      rw [checked_of_loading hload] at h
      obtain ⟨hreport, -⟩ := MapChunk.validate_eq_ok.1 h
      cases hmap : m.toArtifact settings with
      | ok artifact =>
        exact .inr (.inr ⟨⟨text, congrArg Prod.fst hread⟩, compiled_of_toArtifact hload hmap hf⟩)
      | error e =>
        rw [compiled_of_toArtifact_error hload hmap] at hf
        cases hf
        rcases MapChunk.toArtifact_eq_error.1 hmap with ⟨herror, -⟩ | ⟨-, hlate⟩
        · rw [hreport] at herror
          cases herror
        · rcases hlate with ⟨e, -, rfl⟩ | ⟨binary, -, e, -, rfl⟩
          · exact .inl ⟨e, rfl⟩
          · exact .inr (.inl ⟨e, rfl⟩)

/-- **Checking a file fails when compiling it fails before the map is encoded**, and in
the same way. -/
theorem checked_eq_error :
    checked settings source s = .error f ↔
      compiled settings source s = .error f ∧ BeforeEncoding source s f := by
  refine ⟨compiled_of_checked_error, ?_⟩
  rintro ⟨hcompiled, hbefore⟩
  cases hchecked : checked settings source s with
  | error e =>
    rw [(compiled_of_checked_error hchecked).1] at hcompiled
    cases hcompiled
    rfl
  | ok report =>
    -- nothing that fails after a passed check is a failure from before it
    exfalso
    rcases compiled_of_checked_ok hchecked hcompiled with
      ⟨e, rfl⟩ | ⟨e, rfl⟩ | ⟨⟨text, hread⟩, path, fault, rfl⟩ <;>
    rcases hbefore with ⟨fault, hfault, h⟩ | h | ⟨e, h⟩ | ⟨shown, h⟩ <;>
    cases h
    -- nor is the disk to blame for the reading, as it has given the file
    rw [hread] at hfault
    cases hfault

end Files

/-! ## All stages -/

/-- **A document goes through the stages in their order.** The first stage that finds
something wrong decides what compiling it comes to: the text may not be JSON, or of no map;
the map may have an error anywhere, all of which are then shown; it may have no binary
form. If its binary form is not too long it has an artifact, which holds it. None of this
depends on the settings, and a file is checked by the same stages as it is compiled,
up to the report. -/
theorem stages_in_order :
    (∀ settings text,
      (Json.ofText? text = none → MapChunk.compileText settings text = .error .notJson) ∧
      ∀ j, Json.ofText? text = some j →
        (∀ e, Node.ofJson (α := MapChunk) j = .error e →
          MapChunk.compileText settings text = .error (.notMap e)) ∧
        ∀ m : MapChunk, Node.ofJson j = .ok m →
          ((∃ shown, MapChunk.compileText settings text = .error (.invalid shown)) ↔
            ∃ n ∈ m.report.allNotes, n.severity = .error) ∧
          (∀ shown, MapChunk.compileText settings text = .error (.invalid shown) →
            ∃ lines, shown = Journal.joined lines ∧
              List.Sublist (m.report.errors.map Journal.noteText) (lines.map Prod.snd)) ∧
          ((∀ n ∈ m.report.allNotes, n.severity ≠ .error) →
            (∀ e, MapChunk.compileText settings text = .error (.notEncoded e) ↔
              Node.encode m = .error e) ∧
            ∀ binary, Node.encode m = .ok binary → binary.length < 0x80000000 →
              ∃ artifact, MapChunk.compileText settings text = .ok artifact ∧
                Artifact.decompress artifact = .ok binary)) ∧
    (∀ settings settings' text artifact, MapChunk.compileText settings text = .ok artifact →
      ∃ artifact', MapChunk.compileText settings' text = .ok artifact' ∧
        Artifact.decompress artifact' = Artifact.decompress artifact) ∧
    ∀ (σ : Type) [Disk (StateM σ)] (settings : Settings) (source : Path) (s : σ) (f : CompileFailure),
      (checked settings source s = .error f ↔
        compiled settings source s = .error f ∧ BeforeEncoding source s f) ∧
      ∀ report, checked settings source s = .ok report → compiled settings source s = .error f →
        (∃ e, f = .notEncoded e) ∨ (∃ e, f = .notCompressed e) ∨ ∃ path fault, f = .disk path fault := by
  refine ⟨?_, ?_, ?_⟩
  · intro settings text
    refine ⟨MapChunk.compileText_of_notJson, ?_⟩
    intro j hjson
    refine ⟨fun e => MapChunk.compileText_of_notMap hjson, ?_⟩
    intro m hload
    rw [MapChunk.compileText_of_map hjson hload]
    refine ⟨MapChunk.toArtifact_invalid_iff, fun shown => MapChunk.errors_shown_of_invalid, ?_⟩
    intro hnotes
    have hvalid := Journal.hasError_eq_false_iff.2 hnotes
    refine ⟨?_, ?_⟩
    · intro e
      rw [MapChunk.toArtifact_notEncoded_iff]
      exact ⟨fun h => h.2, fun h => ⟨hvalid, h⟩⟩
    · intro binary hencode hfits
      exact MapChunk.exists_toArtifact settings hvalid hencode hfits
  · intro settings settings' text artifact h
    exact MapChunk.compileText_of_compileText h
  · intro σ disk settings source s f
    refine ⟨checked_eq_error, ?_⟩
    intro report hchecked hcompiled
    rcases compiled_of_checked_ok hchecked hcompiled with h | h | ⟨-, h⟩
    · exact .inl h
    · exact .inr (.inl h)
    · exact .inr (.inr h)

/-- The map without anything compiles, and a file that is not JSON fails in the same way
whether it is checked or compiled. -/
theorem stages_in_order_nothing :
    (∃ artifact, MapChunk.compileText .initial "{}" = .ok artifact ∧
      Artifact.decompress artifact = .ok ([1, 0, 0, 0] ++ List.replicate 16 0)) ∧
    compiled .initial ⟨"a"⟩ (FileTree.mk [(["a"], .file [0x78])] []) = .error .notJson := by
  obtain ⟨htext, -, hfile⟩ := stages_in_order
  refine ⟨?_, ?_⟩
  · have hload : Node.ofJson (.object []) = .ok (Record.initial : MapChunk) := rfl
    have hvalid : (Record.initial : MapChunk).report.hasError = false := by decide
    obtain ⟨-, -, hencoded⟩ := ((htext .initial "{}").2 (.object []) rfl).2 _ hload
    exact (hencoded (Journal.hasError_eq_false_iff.1 hvalid)).2 _ rfl (by decide)
  · exact ((hfile FileTree .initial ⟨"a"⟩ _ .notJson).1.1 rfl).1

end MapDocument.Compile
