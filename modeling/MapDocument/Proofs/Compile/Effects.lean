import MapDocument.Proofs.Compile.File
import MapDocument.Proofs.Disk.Lawful
/-!
# Compilation — what is done to the disk

A document that does not compile leaves the disk as it was. One that does is
put there whole: either its artifact, and its text if that is kept, can both be
read afterwards, or no file has changed but that of the text, which is not
left behind. Apart from these two, only folders above the artifact are made.
-/

namespace MapDocument.Compile

open Disk (Made Holds)

variable {σ : Type} [Disk (StateM σ)] {tree : σ → FileTree} {settings : Settings} {source : Path}
  {m : MapChunk} {artifact : Bytes} {s : σ} {t t' t'' : FileTree}

/-! ## Files that are put, and files that are not -/

/-- The artifact can be read, and the text if it is kept. -/
structure Stored (settings : Settings) (source : Path) (m : MapChunk) (artifact : Bytes)
    (t : FileTree) : Prop where
  artifact : t.read (artifactPath settings source) = .ok artifact
  text : settings.keepsText = true →
    t.read (textPath settings source) = .ok (Utf8.encode m.toText)

/-- The artifact is as it was, no text is left where there was none, and no other file
has changed. -/
structure Withdrawn (settings : Settings) (source : Path) (t t' : FileTree) : Prop where
  artifact : t'.file? (t.place (artifactPath settings source)) =
    t.file? (t.place (artifactPath settings source))
  text : t.file? (t.place (textPath settings source)) = none →
    t'.file? (t.place (textPath settings source)) = none
  others : ∀ l, (settings.keepsText = true → l ≠ t.place (textPath settings source)) →
    t'.file? l = t.file? l

/-- All that may have changed are the artifact, the text if it is kept, and folders above
the artifact that were missing. -/
def Confined (settings : Settings) (source : Path) (folders : List Location) (t t' : FileTree) :
    Prop :=
  ∀ l, t'.entry? l = t.entry? l ∨ l = t.place (artifactPath settings source) ∨
    settings.keepsText = true ∧ l = t.place (textPath settings source) ∨
    l ∈ folders ∧ t.entry? l = none ∧ t'.entry? l = some .folder

/-- Nothing was done. -/
theorem Withdrawn.refl (t : FileTree) : Withdrawn settings source t t :=
  ⟨rfl, fun h => h, fun _ _ => rfl⟩

theorem Confined.refl (folders : List Location) (t : FileTree) :
    Confined settings source folders t t := fun _ => .inl rfl

/-- Folders are made before, which are not files. -/
theorem Withdrawn.of_made {folders : List Location} (h : Made folders t t')
    (h' : Withdrawn settings source t' t'') : Withdrawn settings source t t'' := by
  have hplace (path : Path) : t'.place path = t.place path := FileTree.place_congr h.here path
  refine ⟨?_, ?_, ?_⟩
  · rw [← h.file?, ← hplace, h'.artifact]
  · rw [← h.file?, ← hplace]
    exact h'.text
  · intro l hl
    rw [← h.file? l]
    exact h'.others l (by rw [hplace]; exact hl)

theorem Confined.of_made {folders : List Location} (h : Made folders t t')
    (h' : Confined settings source [] t' t'') : Confined settings source folders t t'' := by
  have hplace (path : Path) : t'.place path = t.place path := FileTree.place_congr h.here path
  intro l
  rcases h' l with hsame | hout | htext | ⟨hnone, -⟩
  · rcases h.entries l with hsame' | ⟨hl, hnone, hfolder⟩
    · exact .inl (hsame.trans hsame')
    · exact .inr (.inr (.inr ⟨hl, hnone, hsame.trans hfolder⟩))
  · rw [hplace] at hout
    exact .inr (.inl hout)
  · rw [hplace] at htext
    exact .inr (.inr (.inl htext))
  · cases hnone

/-- The text is not put where the artifact is. -/
theorem place_textPath_ne {content : Bytes}
    (h : t.write (textPath settings source) content = .ok t') :
    t.place (artifactPath settings source) ≠ t.place (textPath settings source) :=
  FileTree.place_withExtension_ne (by decide) (by decide) h

/-- A text that is written and taken away again is withdrawn. -/
theorem withdrawn_of_remove {content : Bytes} (hkeeps : settings.keepsText = true)
    (hwrite : t.write (textPath settings source) content = .ok t')
    (hremove : t'.remove (textPath settings source) = .ok t'') :
    Withdrawn settings source t t'' ∧ Confined settings source [] t t'' := by
  have hplace : t'.place (textPath settings source) = t.place (textPath settings source) :=
    FileTree.place_congr (FileTree.here_of_write hwrite) _
  have hentry {l : Location} (hl : l ≠ t.place (textPath settings source)) :
      t''.entry? l = t.entry? l := by
    rw [← FileTree.entry?_of_write hwrite hl]
    exact FileTree.entry?_of_remove hremove (by rwa [hplace])
  refine ⟨⟨?_, ?_, ?_⟩, ?_⟩
  · exact FileTree.file?_congr (hentry (place_textPath_ne hwrite))
  · intro _
    rw [← hplace]
    exact FileTree.file?_of_remove hremove
  · exact fun l hl => FileTree.file?_congr (hentry (hl hkeeps))
  · intro l
    by_cases hl : l = t.place (textPath settings source)
    · exact .inr (.inr (.inl ⟨hkeeps, hl⟩))
    · exact .inl (hentry hl)

/-- What an artifact is written to is confined to it. -/
theorem confined_of_write (hwrite : t.write (artifactPath settings source) artifact = .ok t') :
    Confined settings source [] t t' := by
  intro l
  by_cases hl : l = t.place (artifactPath settings source)
  · exact .inr (.inl hl)
  · exact .inl (FileTree.entry?_of_write hwrite hl)

/-- With the text written before, it is confined to both. -/
theorem confined_of_writes {content : Bytes} (hkeeps : settings.keepsText = true)
    (htext : t.write (textPath settings source) content = .ok t')
    (hout : t'.write (artifactPath settings source) artifact = .ok t'') :
    Confined settings source [] t t'' := by
  have hplace (path : Path) : t'.place path = t.place path :=
    FileTree.place_congr (FileTree.here_of_write htext) path
  intro l
  by_cases hl : l = t.place (textPath settings source)
  · exact .inr (.inr (.inl ⟨hkeeps, hl⟩))
  · rcases confined_of_write hout l with hsame | hl' | ⟨-, hl'⟩ | ⟨hnone, -⟩
    · exact .inl (hsame.trans (FileTree.entry?_of_write htext hl))
    · rw [hplace] at hl'
      exact .inr (.inl hl')
    · rw [hplace] at hl'
      exact absurd hl' hl
    · cases hnone

/-! ## What each step comes to -/

/-- Folders above the artifact are made where they are missing, whether or not all can be. -/
theorem makeParents_cases (h : Holds tree) (path : Path) (s : σ) :
    ∃ s', Made ((Disk.parents path).map (tree s).place) (tree s) (tree s') ∧
      ((atPath (m := StateM σ) path (Disk.makeParents path)).run s = (.ok (), s') ∨
        ∃ f, (atPath (m := StateM σ) path (Disk.makeParents path)).run s = (.error f, s')) := by
  have hrun := run_atPath path (Disk.makeParents path : StateM σ _) s
  refine ⟨_, h.made_makeParents path s, ?_⟩
  cases hanswer : (Disk.makeParents (m := StateM σ) path s).1 with
  | ok done =>
    rw [hanswer] at hrun
    exact .inl hrun
  | error fault =>
    rw [hanswer] at hrun
    exact .inr ⟨_, hrun⟩

/-- The text is written, and can be taken away again, or nothing is done. -/
theorem write_cases (h : Holds tree) (path : Path) (content : Bytes) (s : σ) :
    (∃ s', (atPath (m := StateM σ) path (Disk.write path content)).run s = (.ok (), s') ∧
      (tree s).write path content = .ok (tree s') ∧
      ∀ s'', tree s'' = tree s' → (Disk.removes path s'').1 = .ok ()) ∨
    ∃ f s', (atPath (m := StateM σ) path (Disk.write path content)).run s = (.error f, s') ∧
      tree s' = tree s := by
  have hrun := run_atPath path (Disk.write path content : StateM σ _) s
  have hremoves := h.remove_written path content s
  rcases h.write path content s with ⟨hanswer, hwrite⟩ | ⟨⟨fault, hanswer⟩, hsame⟩
  · rw [show (Disk.write (m := StateM σ) path content s).1 = .ok () from hanswer] at hrun
    exact .inl ⟨_, hrun, hwrite, fun s'' => hremoves s'' hanswer⟩
  · rw [show (Disk.write (m := StateM σ) path content s).1 = .error fault from hanswer] at hrun
    exact .inr ⟨_, _, hrun, hsame⟩

/-- The artifact is written; or it is not, and the text is taken away, if there is one. -/
theorem storing_cases (h : Holds tree) (settings : Settings) (source : Path) (artifact : Bytes)
    (s : σ) :
    (∃ s', (storing settings source artifact).run s = (.ok (artifactPath settings source), s') ∧
      (tree s).write (artifactPath settings source) artifact = .ok (tree s')) ∨
    ∃ f s', (storing settings source artifact).run s = (.error f,
        if settings.keepsText then (Disk.removes (textPath settings source) s').2 else s') ∧
      tree s' = tree s := by
  have hrun := run_lift (Disk.write (artifactPath settings source) artifact : StateM σ _) s
  rcases h.write (artifactPath settings source) artifact s with
    ⟨hanswer, hwrite⟩ | ⟨⟨fault, hanswer⟩, hsame⟩
  · rw [show (Disk.write (m := StateM σ) (artifactPath settings source) artifact s).1 = .ok ()
      from hanswer] at hrun
    exact .inl ⟨_, run_bind_of_ok hrun, hwrite⟩
  · rw [show (Disk.write (m := StateM σ) (artifactPath settings source) artifact s).1 =
      .error fault from hanswer] at hrun
    refine .inr ⟨.disk (artifactPath settings source) fault, _, (run_bind_of_ok hrun).trans ?_, hsame⟩
    cases settings.keepsText <;> rfl

/-! ## What the last steps do -/

/-- What steps do to a tree, be it that they succeed or fail. -/
structure Does (settings : Settings) (source : Path) (m : MapChunk) (artifact : Bytes)
    (folders : List Location) (t t' : FileTree) (result : Except CompileFailure Path) : Prop where
  stored : ∀ out, result = .ok out →
    out = artifactPath settings source ∧ Stored settings source m artifact t'
  withdrawn : ∀ f, result = .error f → Withdrawn settings source t t'
  confined : Confined settings source folders t t'

/-- A failure that leaves the tree as it is. -/
theorem Does.of_error {folders : List Location} (f : CompileFailure) (h : t' = t) :
    Does settings source m artifact folders t t' (.error f) := by
  rw [h]
  exact ⟨nofun, fun _ _ => .refl t, .refl folders t⟩

/-- **Without a text the artifact is stored, or nothing is done.** -/
theorem does_storing (h : Holds tree) (hkeeps : settings.keepsText = false) (m : MapChunk) :
    Does settings source m artifact [] (tree s) (tree ((storing settings source artifact).run s).2)
      ((storing settings source artifact).run s).1 := by
  rcases storing_cases h settings source artifact s with ⟨s', hrun, hwrite⟩ | ⟨f, s', hrun, hsame⟩
  · rw [hrun]
    refine ⟨?_, nofun, confined_of_write hwrite⟩
    intro out hout
    cases hout
    exact ⟨rfl, FileTree.read_of_write hwrite, fun htext => by simp [hkeeps] at htext⟩
  · rw [hrun, hkeeps]
    exact .of_error f hsame

/-- **Behind a text the artifact is stored, or both are withdrawn.** -/
theorem does_storing_of_text (h : Holds tree) (hkeeps : settings.keepsText = true)
    (htext : t.write (textPath settings source) (Utf8.encode m.toText) = .ok (tree s))
    (hremoves : ∀ s', tree s' = tree s → (Disk.removes (textPath settings source) s').1 = .ok ()) :
    Does settings source m artifact [] t (tree ((storing settings source artifact).run s).2)
      ((storing settings source artifact).run s).1 := by
  rcases storing_cases h settings source artifact s with ⟨s', hrun, hwrite⟩ | ⟨f, s', hrun, hsame⟩
  · rw [hrun]
    refine ⟨?_, nofun, confined_of_writes hkeeps htext hwrite⟩
    intro out hout
    cases hout
    refine ⟨rfl, FileTree.read_of_write hwrite, fun _ => ?_⟩
    -- the artifact is written elsewhere, so the text is still there
    exact FileTree.read_of_write_write htext hwrite (place_textPath_ne htext).symm
  · rw [hrun, if_pos hkeeps]
    have hremove : (tree s).remove (textPath settings source) =
        .ok (tree (Disk.removes (textPath settings source) s').2) := by
      rcases h.remove (textPath settings source) s' with ⟨-, hremove⟩ | ⟨⟨fault, hfault⟩, -⟩
      · rw [← hsame]
        exact hremove
      · rw [hremoves s' hsame] at hfault
        cases hfault
    obtain ⟨hwithdrawn, hconfined⟩ := withdrawn_of_remove hkeeps htext hremove
    exact ⟨nofun, fun _ _ => hwithdrawn, hconfined⟩

/-- Folders are made before. -/
theorem Does.of_made {folders : List Location} {result : Except CompileFailure Path}
    (h : Made folders t t') (h' : Does settings source m artifact [] t' t'' result) :
    Does settings source m artifact folders t t'' result :=
  ⟨h'.stored, fun f hf => .of_made h (h'.withdrawn f hf), .of_made h h'.confined⟩

/-- **Where there is an artifact, it is stored with its text, or both are withdrawn.** -/
theorem does_putting (h : Holds tree) (settings : Settings) (source : Path) (m : MapChunk)
    (artifact : Bytes) (s : σ) :
    Does settings source m artifact
      ((Disk.parents (artifactPath settings source)).map (tree s).place) (tree s)
      (tree ((putting settings source m artifact).run s).2)
      ((putting settings source m artifact).run s).1 := by
  obtain ⟨s1, hmade, hparents | ⟨f, hparents⟩⟩ :=
    makeParents_cases h (artifactPath settings source) s
  · unfold putting
    rw [run_bind_of_ok hparents]
    refine .of_made hmade ?_
    cases hkeeps : settings.keepsText with
    | false => exact does_storing h hkeeps m
    | true =>
      simp only [if_true]
      rcases write_cases h (textPath settings source) (Utf8.encode m.toText) s1 with
        ⟨s2, htext, hwrite, hremoves⟩ | ⟨f, s2, htext, hsame⟩
      · rw [run_bind_of_ok htext]
        exact does_storing_of_text h hkeeps hwrite hremoves
      · rw [run_bind_of_error htext]
        exact .of_error f hsame
  · unfold putting
    rw [run_bind_of_error hparents]
    exact .of_made hmade (.of_error f rfl)

/-! ## All steps -/

/-- Reading a file changes nothing, and finds the text that the tree has there. -/
theorem reading_eq (h : Holds tree) (source : Path) (s : σ) :
    tree (reading source s).2 = tree s ∧ ∀ text, (reading source s).1 = .ok text →
      ∃ content, (tree s).read source = .ok content ∧ Utf8.decode? content = some text := by
  obtain ⟨hsame, hread⟩ := h.read source s
  have hreads : Disk.read (m := StateM σ) source s = Disk.reads source s := rfl
  rw [reading, Disk.readText, Disk.run_bind, hreads]
  cases hanswer : (Disk.reads source s).1 with
  | error fault => exact ⟨hsame, fun text htext => by cases htext⟩
  | ok content =>
    cases htext : Utf8.decode? content with
    | none =>
      simp only [htext]
      exact ⟨hsame, fun text htext => by cases htext⟩
    | some text =>
      simp only [htext]
      refine ⟨hsame, ?_⟩
      intro text' htext'
      cases htext'
      exact ⟨content, hread content hanswer, htext⟩

/-- What compiling a file does to the tree that a disk holds. -/
structure Effects (tree : σ → FileTree) (settings : Settings) (source : Path) (s : σ) : Prop where
  /-- A file that cannot be read is not compiled, and nothing changes. -/
  unread : ∀ fault, (reading source s).1 = .error fault →
    (compiling settings source s).1 = .error (.disk source fault) ∧
      tree (compiling settings source s).2 = tree s
  /-- Nor is one whose text has no artifact. -/
  refused : ∀ text f, (reading source s).1 = .ok text →
    MapChunk.compileText settings text = .error f →
      (compiling settings source s).1 = .error f ∧ tree (compiling settings source s).2 = tree s
  /-- What is compiled can be read: the artifact holds the binary form of the map in the
  source, and the text, if it is kept, is that of the same map. -/
  written : ∀ out, (compiling settings source s).1 = .ok out →
    out = artifactPath settings source ∧
      ∃ content text m binary artifact,
        (tree s).read source = .ok content ∧ Utf8.decode? content = some text ∧
        MapChunk.ofText text = .ok m ∧ Node.encode m = .ok binary ∧
        Artifact.decompress artifact = .ok binary ∧
        Stored settings source m artifact (tree (compiling settings source s).2)
  /-- A file whose text has an artifact fails for the disk alone; then no file has changed
  but that of the text, which is not left behind. -/
  withdrawn : ∀ text artifact f, (reading source s).1 = .ok text →
    MapChunk.compileText settings text = .ok artifact → (compiling settings source s).1 = .error f →
      (∃ path fault, f = .disk path fault) ∧
        Withdrawn settings source (tree s) (tree (compiling settings source s).2)
  /-- Whatever it comes to, there may be another artifact, another text if it is kept, and
  folders above the artifact that were missing, and nothing else has changed. -/
  confined : Confined settings source ((Disk.parents (artifactPath settings source)).map (tree s).place)
    (tree s) (tree (compiling settings source s).2)

/-- A file that cannot be read. -/
theorem Effects.of_unread {fault : DiskFault} {s' : σ} (hsame : tree s' = tree s)
    (hread : reading source s = (.error fault, s'))
    (h : compiling settings source s = (.error (.disk source fault), s')) :
    Effects tree settings source s where
  unread fault' hfault := by
    rw [hread] at hfault
    cases hfault
    rw [h]
    exact ⟨rfl, hsame⟩
  refused text f htext := by
    rw [hread] at htext
    cases htext
  written out hout := by
    rw [h] at hout
    cases hout
  withdrawn text artifact f htext := by
    rw [hread] at htext
    cases htext
  confined := by
    rw [h, hsame]
    exact .refl _ _

/-- A file whose text has no artifact. -/
theorem Effects.of_refused {text : String} {f : CompileFailure} {s' : σ} (hsame : tree s' = tree s)
    (hread : reading source s = (.ok text, s'))
    (htext : MapChunk.compileText settings text = .error f)
    (h : compiling settings source s = (.error f, s')) : Effects tree settings source s where
  unread fault hfault := by
    rw [hread] at hfault
    cases hfault
  refused text' f' htext' hf' := by
    rw [hread] at htext'
    cases htext'
    rw [htext] at hf'
    cases hf'
    rw [h]
    exact ⟨rfl, hsame⟩
  written out hout := by
    rw [h] at hout
    cases hout
  withdrawn text' artifact f' htext' hartifact := by
    rw [hread] at htext'
    cases htext'
    rw [htext] at hartifact
    cases hartifact
  confined := by
    rw [h, hsame]
    exact .refl _ _

/-- A file whose text has an artifact, which is put on the disk. -/
theorem Effects.of_artifact {content : Bytes} {text : String} {s' : σ} (h : Holds tree)
    (hsame : tree s' = tree s) (hcontent : (tree s).read source = .ok content)
    (hdecode : Utf8.decode? content = some text) (hread : reading source s = (.ok text, s'))
    (hload : loading source s = (.ok m, s')) (hmap : MapChunk.ofText text = .ok m)
    (hartifact : m.toArtifact settings = .ok artifact) : Effects tree settings source s := by
  have hcompiling := compiling_of_toArtifact hload hartifact
  have hdoes := does_putting h settings source m artifact s'
  rw [← hcompiling, hsame] at hdoes
  refine ⟨?_, ?_, ?_, ?_, hdoes.confined⟩
  · intro fault hfault
    rw [hread] at hfault
    cases hfault
  · intro text' f htext hf
    rw [hread] at htext
    cases htext
    have hcompile : MapChunk.compileText settings text = .ok artifact :=
      bind_eq_ok.2 ⟨m, hmap, hartifact⟩
    rw [hcompile] at hf
    cases hf
  · intro out hout
    obtain ⟨rfl, hstored⟩ := hdoes.stored out hout
    obtain ⟨-, binary, hencode, hcompress⟩ := MapChunk.toArtifact_eq_ok.1 hartifact
    exact ⟨rfl, content, text, m, binary, artifact, hcontent, hdecode, hmap, hencode,
      Artifact.decompress_of_compress hcompress, hstored⟩
  · intro text' artifact' f _ _ hf
    exact ⟨compiled_of_toArtifact hload hartifact hf, hdoes.withdrawn f hf⟩

/-- **What compiling a file does to the disk.** If it cannot be read, or its text has no
artifact, nothing changes. If it is compiled, its artifact and its text can be read. If the
disk fails, the file at the path of the artifact is as it was and no text is left that was
not there. In no case does anything change but these files and the folders above them. -/
theorem compileFile_effects (h : Holds tree) (settings : Settings) (source : Path) (s : σ) :
    Effects tree settings source s := by
  obtain ⟨hsame, hfound⟩ := reading_eq h source s
  rcases loading_eq source s with ⟨fault, s', hread, hload⟩ | ⟨text, s', hread, hload⟩
  · rw [hread] at hsame
    exact .of_unread hsame hread (compiling_of_loading_error hload)
  · rw [hread] at hsame
    obtain ⟨content, hcontent, hdecode⟩ := hfound text (by rw [hread])
    cases hmap : MapChunk.ofText text with
    | error f =>
      rw [hmap] at hload
      exact .of_refused hsame hread (bind_eq_error.2 (.inl hmap)) (compiling_of_loading_error hload)
    | ok m =>
      rw [hmap] at hload
      cases hartifact : m.toArtifact settings with
      | error f =>
        exact .of_refused hsame hread (bind_eq_error.2 (.inr ⟨m, hmap, hartifact⟩))
          (compiling_of_toArtifact_error hload hartifact)
      | ok artifact => exact .of_artifact h hsame hcontent hdecode hread hload hmap hartifact

/-- Settings with which the text is kept. -/
def keeping : Settings := { Settings.initial with keepsText := true }

/-- A map without anything, and a folder where its artifact would be. -/
def obstructed : FileTree := ⟨[(["a.json"], .file [0x7B, 0x7D]), (["a.dlb"], .folder)], []⟩

/-- Where the artifact cannot be written, the text that was written before it is taken away
again, and the map is still there. -/
theorem compileFile_effects_obstructed :
    Holds (fun t : FileTree => t) ∧ ∃ f t',
      compiling keeping ⟨"a.json"⟩ obstructed = (.error f, t') ∧
        t'.file? ["a.normalized.json"] = none ∧ t'.file? ["a.json"] = some [0x7B, 0x7D] := by
  refine ⟨Disk.holds_fileTree, ?_⟩
  have hcompiles : (MapChunk.compileText keeping "{}").isOk = true := by decide +kernel
  obtain ⟨artifact, hartifact⟩ := isOk_iff.1 hcompiles
  have hfailed : (compiling keeping ⟨"a.json"⟩ obstructed).1.isOk = false := by decide +kernel
  have hplace : obstructed.place (textPath keeping ⟨"a.json"⟩) = ["a.normalized.json"] := by
    decide +kernel
  cases hdone : compiling keeping ⟨"a.json"⟩ obstructed with
  | mk answer t' =>
    rw [hdone] at hfailed
    cases answer with
    | ok out => cases hfailed
    | error f =>
      have heffects := compileFile_effects Disk.holds_fileTree keeping ⟨"a.json"⟩ obstructed
      obtain ⟨-, hwithdrawn⟩ := heffects.withdrawn "{}" artifact f rfl hartifact (by rw [hdone])
      rw [hdone] at hwithdrawn
      refine ⟨f, t', rfl, ?_, ?_⟩
      · exact hplace ▸ hwithdrawn.text (by rw [hplace]; rfl)
      · exact hwithdrawn.others ["a.json"] (by rw [hplace]; decide)

end MapDocument.Compile
