import MapDocument.Proofs.Compile.Abreast
import MapDocument.Proofs.Disk.Output
/-!
# Compilation — what is overwritten

Compiling a file changes no file but those at the places of its outputs, and
these only where they can be files at all. The text that is kept never takes the
place of the source. The artifact does if the source has the extension of
artifacts and these are put into its own folder; then a document that compiles
is replaced by its artifact.
-/

namespace MapDocument

/-! ## Files that change -/

/-- No file has changed but at the places of some paths, which end in names that files can
have; and folders have stayed. -/
structure FileTree.Rewritten (paths : List Path) (t t' : FileTree) : Prop where
  here : t'.here = t.here
  folders : ∀ l, t.entry? l = some .folder → t'.entry? l = some .folder
  files : ∀ l, t'.file? l = t.file? l ∨
    ∃ p ∈ paths, Path.Names (Path.lastName p.reversed) ∧ l = t.place p

namespace FileTree.Rewritten

variable {paths paths' : List Path} {t t' t'' : FileTree} {p q : Path} {content content' : Bytes}

theorem refl (paths : List Path) (t : FileTree) : Rewritten paths t t :=
  ⟨rfl, fun _ => id, fun _ => .inl rfl⟩

theorem trans (h : Rewritten paths t t') (h' : Rewritten paths t' t'') : Rewritten paths t t'' where
  here := h'.here.trans h.here
  folders l hl := h'.folders l (h.folders l hl)
  files l := by
    rcases h'.files l with hsame | ⟨p, hp, hnames, hl⟩
    · rw [hsame]
      exact h.files l
    · rw [place_congr h.here] at hl
      exact .inr ⟨p, hp, hnames, hl⟩

/-- More paths may be named. -/
theorem mono (h : Rewritten paths t t') (hpaths : paths ⊆ paths') : Rewritten paths' t t' where
  here := h.here
  folders := h.folders
  files l := (h.files l).imp_right fun ⟨p, hp, hfile⟩ => ⟨p, hpaths hp, hfile⟩

/-- Folders that are made are not files. -/
theorem of_made {folders : List Location} (h : Disk.Made folders t t') : Rewritten paths t t' where
  here := h.here
  folders l hl := by
    rcases h.entries l with hsame | ⟨-, hnone, -⟩
    · exact hsame.trans hl
    · rw [hl] at hnone
      cases hnone
  files l := .inl (h.file? l)

/-- A file is written at a path that ends in the name of it. -/
theorem of_write (h : t.write p content = .ok t') (hp : p ∈ paths) : Rewritten paths t t' where
  here := here_of_write h
  folders := folder_of_write h
  files l := by
    by_cases hl : l = t.place p
    · obtain ⟨-, -, -, hnames, -⟩ := write_eq_ok h
      exact .inr ⟨p, hp, hnames, hl⟩
    · exact .inl (file?_congr (entry?_of_write h hl))

/-- So is one that is taken away. -/
theorem of_remove (h : t.remove p = .ok t') (hp : p ∈ paths)
    (hnames : Path.Names (Path.lastName p.reversed)) : Rewritten paths t t' := by
  obtain ⟨rfl, content, hentry⟩ := remove_eq_ok h
  refine ⟨rfl, fun l hl => ?_, fun l => ?_⟩
  · have hne : l ≠ t.place p := by
      rintro rfl
      rw [hentry] at hl
      cases hl
    rwa [entry?_erase_of_ne hne]
  · by_cases hl : l = t.place p
    · exact .inr ⟨p, hp, hnames, hl⟩
    · exact .inl (file?_congr (entry?_erase_of_ne hl))

variable (h : Rewritten paths t t')
include h

/-- **What could be read can be read still**, as the file that is then at its place. -/
theorem read_of_file? (hread : t.read q = .ok content)
    (hfile : t'.file? (t.place q) = some content') : t'.read q = .ok content' := by
  obtain ⟨hreaches, hopen, -⟩ := read_eq_ok.1 hread
  rw [← place_congr h.here] at hfile
  exact read_of_reaches (hreaches.mono h.here h.folders) hopen (file?_eq_some.1 hfile)

/-- It is as it was where no file was changed. -/
theorem read_of_read (hread : t.read q = .ok content)
    (hsame : t'.file? (t.place q) = t.file? (t.place q)) : t'.read q = .ok content := by
  obtain ⟨-, -, hentry⟩ := read_eq_ok.1 hread
  rw [file?_eq_some.2 hentry] at hsame
  exact h.read_of_file? hread hsame

end FileTree.Rewritten

namespace Compile

open Disk (Holds)
open FileTree (Rewritten)

variable {σ : Type} [Disk (StateM σ)] {tree : σ → FileTree} {settings : Settings} {source : Path}
  {m : MapChunk} {artifact : Bytes} {s : σ} {t : FileTree}

/-! ## What compiling a file changes -/

/-- The artifact is written, or the text taken away that was written before. -/
theorem rewritten_storing (h : Holds tree)
    (htext : settings.keepsText = true →
      Path.Names (Path.lastName (textPath settings source).reversed)) :
    Rewritten (written settings source) (tree s)
      (tree ((storing settings source artifact).run s).2) := by
  rcases storing_cases h settings source artifact s with ⟨s', hrun, hwrite⟩ | ⟨f, s', hrun, hsame⟩
  · rw [hrun]
    exact .of_write hwrite (artifactPath_mem_written settings source)
  · rw [hrun]
    cases hkeeps : settings.keepsText with
    | false =>
      simp only [Bool.false_eq_true, if_false, hsame]
      exact .refl _ _
    | true =>
      simp only [if_true]
      rcases h.remove (textPath settings source) s' with ⟨-, hremove⟩ | ⟨-, hstays⟩
      · rw [hsame] at hremove
        exact .of_remove hremove (textPath_mem_written hkeeps source) (htext hkeeps)
      · rw [hstays, hsame]
        exact .refl _ _

/-- Before that, folders are made and the text is written. -/
theorem rewritten_putting (h : Holds tree) (settings : Settings) (source : Path) (m : MapChunk)
    (artifact : Bytes) (s : σ) :
    Rewritten (written settings source) (tree s)
      (tree ((putting settings source m artifact).run s).2) := by
  obtain ⟨s1, hmade, hparents | ⟨f, hparents⟩⟩ :=
    makeParents_cases h (artifactPath settings source) s
  · unfold putting
    rw [run_bind_of_ok hparents]
    refine .trans (.of_made hmade) ?_
    cases hkeeps : settings.keepsText with
    | false => exact rewritten_storing h (by simp [hkeeps])
    | true =>
      simp only [if_true]
      rcases write_cases h (textPath settings source) (Utf8.encode m.toText) s1 with
        ⟨s2, htext, hwrite, -⟩ | ⟨f, s2, htext, hsame⟩
      · rw [run_bind_of_ok htext]
        obtain ⟨-, -, -, hnames, -⟩ := FileTree.write_eq_ok hwrite
        exact .trans (.of_write hwrite (textPath_mem_written hkeeps source))
          (rewritten_storing h fun _ => hnames)
      · rw [run_bind_of_error htext]
        simp only [hsame]
        exact .refl _ _
  · unfold putting
    rw [run_bind_of_error hparents]
    exact .of_made hmade

/-- **No file is changed but at the places of outputs**, which end in names that files can have. -/
theorem rewritten_compiling (h : Holds tree) (settings : Settings) (source : Path) (s : σ) :
    Rewritten (written settings source) (tree s) (tree (compiling settings source s).2) := by
  have hsame := tree_loading h source s
  cases hload : loading source s with
  | mk result s' =>
    rw [hload] at hsame
    cases result with
    | error f =>
      rw [compiling_of_loading_error hload, hsame]
      exact .refl _ _
    | ok m =>
      cases hartifact : m.toArtifact settings with
      | error f =>
        rw [compiling_of_toArtifact_error hload hartifact, hsame]
        exact .refl _ _
      | ok artifact =>
        rw [compiling_of_toArtifact hload hartifact, ← hsame]
        exact rewritten_putting h settings source m artifact s'

/-- A file that the tree cannot give is not compiled, and nothing changes. -/
theorem compiling_of_read_error (h : Holds tree) (settings : Settings) {fault : DiskFault}
    (hread : (tree s).read source = .error fault) :
    (∃ fault', (compiling settings source s).1 = .error (.disk source fault')) ∧
      tree (compiling settings source s).2 = tree s := by
  have heffects := compileFile_effects h settings source s
  cases hanswer : (reading source s).1 with
  | error fault' =>
    obtain ⟨hfails, hsame⟩ := heffects.unread fault' hanswer
    exact ⟨⟨fault', hfails⟩, hsame⟩
  | ok text =>
    obtain ⟨content, hcontent, -⟩ := (reading_eq h source s).2 text hanswer
    rw [hread] at hcontent
    cases hcontent

/-- A file that is not compiled leaves its artifact as it was. -/
theorem file?_artifactPath_of_error (h : Holds tree) {f : CompileFailure}
    (hf : (compiling settings source s).1 = .error f) :
    (tree (compiling settings source s).2).file? ((tree s).place (artifactPath settings source)) =
      (tree s).file? ((tree s).place (artifactPath settings source)) := by
  have heffects := compileFile_effects h settings source s
  cases hanswer : (reading source s).1 with
  | error fault =>
    obtain ⟨-, hsame⟩ := heffects.unread fault hanswer
    rw [hsame]
  | ok text =>
    cases hcompile : MapChunk.compileText settings text with
    | error f' =>
      obtain ⟨-, hsame⟩ := heffects.refused text f' hanswer hcompile
      rw [hsame]
    | ok artifact =>
      obtain ⟨-, hwithdrawn⟩ := heffects.withdrawn text artifact f hanswer hcompile hf
      exact hwithdrawn.artifact

/-- **What is compiled has an artifact that can be a file.** -/
theorem names_of_compiling (h : Holds tree) {out : Path}
    (hout : (compiling settings source s).1 = .ok out) :
    Path.Names (Path.lastName (artifactPath settings source).reversed) := by
  have hrun : (compileFile (m := StateM σ) settings source).run s =
      (.ok out, (compiling settings source s).2) := Prod.ext hout rfl
  rw [compileFile_eq] at hrun
  obtain ⟨m, s1, -, hrun⟩ := run_bind_eq_ok.1 hrun
  obtain ⟨artifact, s2, -, hrun⟩ := run_bind_eq_ok.1 hrun
  obtain ⟨done, s3, -, hrun⟩ := run_bind_eq_ok.1 hrun
  have hstoring : ∃ s' : σ, ((storing settings source artifact).run s').1 = .ok out := by
    cases hkeeps : settings.keepsText with
    | false =>
      rw [hkeeps] at hrun
      exact ⟨s3, congrArg Prod.fst hrun⟩
    | true =>
      rw [hkeeps] at hrun
      obtain ⟨kept, s4, -, hrun⟩ := run_bind_eq_ok.1 hrun
      exact ⟨s4, congrArg Prod.fst hrun⟩
  obtain ⟨s', hstoring⟩ := hstoring
  rcases storing_cases h settings source artifact s' with ⟨s'', -, hwrite⟩ | ⟨f, s'', hrun, -⟩
  · obtain ⟨-, -, -, hnames, -⟩ := FileTree.write_eq_ok hwrite
    exact hnames
  · rw [hrun] at hstoring
    cases hstoring

/-! ## Outputs at the place of their source -/

/-- The artifact of a source takes its place: the source has the extension of artifacts, and they
are put into a folder that has the place of its own. -/
def TakesPlace (settings : Settings) (t : FileTree) (source : Path) : Prop :=
  source.extension? = some settings.outputExtension.toList ∧
    t.place (settings.outputFolder?.getD source.parts.folder) = t.place source.parts.folder

instance TakesPlace.decidable (settings : Settings) (t : FileTree) (source : Path) :
    Decidable (TakesPlace settings t source) :=
  inferInstanceAs (Decidable (source.extension? = some settings.outputExtension.toList ∧
    t.place (settings.outputFolder?.getD source.parts.folder) = t.place source.parts.folder))

section Places

variable {name : List Char} (hslash : '/' ∉ settings.outputExtension.toList)
  (hname : source.name? = some name)
include hslash hname

/-- Where the artifact can be a file, it has the place of the source in this case only. -/
theorem place_artifactPath_eq
    (hnames : Path.Names (Path.lastName (artifactPath settings source).reversed)) :
    t.place (artifactPath settings source) = t.place source ↔ TakesPlace settings t source := by
  rw [artifactPath, FileTree.lastName_output hslash] at hnames
  exact FileTree.place_output_eq_place hslash hnames hname

/-- In this case it can. -/
theorem TakesPlace.place_eq (h : TakesPlace settings t source) :
    t.place (artifactPath settings source) = t.place source := by
  refine (place_artifactPath_eq hslash hname ?_).2 h
  obtain ⟨-, hproper, -⟩ := Path.lastName_of_name? hname
  have hsame : (source.outputName settings.outputExtension).toList = name := by
    rw [Path.toList_outputName, FileTree.toList_stem hname, Path.stem_append_eq_iff, ← h.1,
      Path.extension?, hname, Option.bind_some]
  rwa [artifactPath, FileTree.lastName_output hslash, hsame]

/-- **The text that is kept never has the place of the source**, where it can be a file. -/
theorem place_textPath_ne_place
    (hnames : Path.Names (Path.lastName (textPath settings source).reversed)) :
    t.place (textPath settings source) ≠ t.place source :=
  FileTree.place_withExtension_output_ne hslash (by decide) (by decide) hname hnames

/-- So no output that can be a file has it in any other case. -/
theorem place_eq_of_mem_written {p : Path} (hp : p ∈ written settings source)
    (hnames : Path.Names (Path.lastName p.reversed)) (hplace : t.place p = t.place source) :
    p = artifactPath settings source ∧ TakesPlace settings t source := by
  rcases eq_of_mem_written hp with rfl | ⟨-, rfl⟩
  · exact ⟨rfl, (place_artifactPath_eq hslash hname hnames).1 hplace⟩
  · exact absurd hplace (place_textPath_ne_place hslash hname hnames)

end Places

/-! ## What becomes of a source -/

/-- The binary form of the map that a file of this content is the text of, if there is one. -/
def binaryOf? (content : Bytes) : Option Bytes := do
  let text ← Utf8.decode? content
  let m ← (MapChunk.ofText text).toOption
  (Node.encode m).toOption

theorem binaryOf?_eq_some {content binary : Bytes} {text : String}
    (hdecode : Utf8.decode? content = some text) (hmap : MapChunk.ofText text = .ok m)
    (hencode : Node.encode m = .ok binary) : binaryOf? content = some binary := by
  have hmap' : (MapChunk.ofText text).toOption = some m := toOption_eq_some.2 hmap
  refine Option.bind_eq_some_iff.2 ⟨text, hdecode, Option.bind_eq_some_iff.2 ⟨m, hmap', ?_⟩⟩
  exact toOption_eq_some.2 hencode

/-- What becomes of a source when it is compiled. -/
structure Sparing (tree : σ → FileTree) (settings : Settings) (source : Path) (s : σ) : Prop where
  /-- It is read as before if no output has its place. -/
  apart : (∀ p ∈ written settings source, (tree s).place p ≠ (tree s).place source) →
    (tree (compiling settings source s).2).read source = (tree s).read source
  /-- It is, too, if it was not compiled. -/
  failed : '/' ∉ settings.outputExtension.toList → (tree s).Closed →
    ∀ f, (compiling settings source s).1 = .error f →
      (tree (compiling settings source s).2).read source = (tree s).read source
  /-- And if its artifact does not take its place, whether or not a text is kept. -/
  other : '/' ∉ settings.outputExtension.toList → (tree s).Closed →
    ¬ TakesPlace settings (tree s) source →
      (tree (compiling settings source s).2).read source = (tree s).read source
  /-- If its artifact does, that is read there once it is compiled. -/
  replaced : '/' ∉ settings.outputExtension.toList → TakesPlace settings (tree s) source →
    ∀ out, (compiling settings source s).1 = .ok out →
      ∃ content binary artifact, (tree s).read source = .ok content ∧ binaryOf? content = some binary ∧
        Artifact.decompress artifact = .ok binary ∧
        (tree (compiling settings source s).2).read source = .ok artifact

/-- A source that the tree can give is as before if no file that is changed has its place. -/
theorem read_compiling (h : Holds tree)
    (hfile : ∀ content, (tree s).read source = .ok content →
      (tree (compiling settings source s).2).file? ((tree s).place source) =
        (tree s).file? ((tree s).place source)) :
    (tree (compiling settings source s).2).read source = (tree s).read source := by
  cases hread : (tree s).read source with
  | error fault =>
    obtain ⟨-, hsame⟩ := compiling_of_read_error h settings hread
    rw [hsame, hread]
  | ok content => exact (rewritten_compiling h settings source s).read_of_read hread (hfile _ hread)

/-- So it is, where the extension has no `/` in it, if its artifact is as before where that takes
its place. -/
theorem read_compiling_of_artifact (h : Holds tree) (hslash : '/' ∉ settings.outputExtension.toList)
    (hclosed : (tree s).Closed)
    (hartifact : TakesPlace settings (tree s) source →
      (tree (compiling settings source s).2).file?
          ((tree s).place (artifactPath settings source)) =
        (tree s).file? ((tree s).place (artifactPath settings source))) :
    (tree (compiling settings source s).2).read source = (tree s).read source := by
  refine read_compiling h fun content hread => ?_
  obtain ⟨name, hname⟩ := FileTree.exists_name?_of_read hclosed hread
  rcases (rewritten_compiling h settings source s).files ((tree s).place source) with
    hsame | ⟨p, hp, hnames, hplace⟩
  · exact hsame
  · obtain ⟨rfl, htakes⟩ := place_eq_of_mem_written hslash hname hp hnames hplace.symm
    rw [hplace]
    exact hartifact htakes

/-- **What becomes of a source.** Compiling a file leaves it as it was, be it compiled or not, if
no output has the place of it. Where the extension of artifacts has no `/` in it, this can be
only the artifact, and is when the source has that extension and artifacts are put into its
folder: then the source is replaced by its artifact, if it compiles. -/
theorem compileFile_sparing (h : Holds tree) (settings : Settings) (source : Path) (s : σ) :
    Sparing tree settings source s := by
  have hrewritten := rewritten_compiling h settings source s
  have heffects := compileFile_effects h settings source s
  refine ⟨?_, ?_, ?_, ?_⟩
  · intro happart
    refine read_compiling h fun content _ => ?_
    rcases hrewritten.files ((tree s).place source) with hsame | ⟨p, hp, -, hplace⟩
    · exact hsame
    · exact absurd hplace.symm (happart p hp)
  · intro hslash hclosed f hf
    exact read_compiling_of_artifact h hslash hclosed fun _ => file?_artifactPath_of_error h hf
  · intro hslash hclosed hother
    exact read_compiling_of_artifact h hslash hclosed fun htakes => absurd htakes hother
  · intro hslash htakes out hout
    obtain ⟨rfl, content, text, m, binary, artifact, hread, hdecode, hmap, hencode, hartifact,
      hstored⟩ := heffects.written out hout
    refine ⟨content, binary, artifact, hread, binaryOf?_eq_some hdecode hmap hencode, hartifact, ?_⟩
    obtain ⟨name, hname, -⟩ := Option.bind_eq_some_iff.1 htakes.1
    obtain ⟨-, -, hentry⟩ := FileTree.read_eq_ok.1 hstored.artifact
    rw [FileTree.place_congr hrewritten.here, htakes.place_eq hslash hname] at hentry
    exact hrewritten.read_of_file? hread (FileTree.file?_eq_some.2 hentry)

/-- A tree with a single file, whose text is that of a map without anything. -/
def loneMap (name : String) : FileTree := ⟨[([name], .file [0x7B, 0x7D])], []⟩

theorem closed_loneMap (name : String) : (loneMap name).Closed := by
  refine FileTree.closed_of_entries rfl fun e he => ?_
  rw [List.mem_singleton.1 he]
  rfl

/-- The binary form of a map without anything. -/
def bareBinary : Bytes := [1, 0, 0, 0] ++ List.replicate 16 0

/-- A text of no members is of such a map. -/
theorem binaryOf?_bare : binaryOf? [0x7B, 0x7D] = some bareBinary := rfl

/-- A map beside which its artifact is put is as before, with its text beside it too; one with
the extension of artifacts is replaced by its artifact. -/
theorem compileFile_sparing_loneMap :
    Holds (fun t : FileTree => t) ∧
      FileTree.read (compiling keeping ⟨"a.json"⟩ (loneMap "a.json")).2 ⟨"a.json"⟩ =
        .ok [0x7B, 0x7D] ∧
      ∃ artifact, FileTree.read (compiling keeping ⟨"a.dlb"⟩ (loneMap "a.dlb")).2 ⟨"a.dlb"⟩ =
          .ok artifact ∧
        Artifact.decompress artifact = .ok bareBinary := by
  refine ⟨Disk.holds_fileTree, ?_, ?_⟩
  · exact (compileFile_sparing Disk.holds_fileTree keeping ⟨"a.json"⟩ (loneMap "a.json")).other
      (by decide) (closed_loneMap "a.json") (by decide +kernel)
  · have hcompiles : (compiling keeping ⟨"a.dlb"⟩ (loneMap "a.dlb")).1.toOption =
        some ⟨"a.dlb"⟩ := by decide +kernel
    obtain ⟨content, binary, artifact, hread, hmap, hartifact, hthere⟩ :=
      (compileFile_sparing Disk.holds_fileTree keeping ⟨"a.dlb"⟩ (loneMap "a.dlb")).replaced
        (by decide) (by decide +kernel) _ (toOption_eq_some.1 hcompiles)
    refine ⟨artifact, hthere, ?_⟩
    have hcontent : (loneMap "a.dlb").read ⟨"a.dlb"⟩ = .ok [0x7B, 0x7D] := rfl
    rw [hcontent] at hread
    cases hread
    rw [hartifact, ← Option.some.inj (binaryOf?_bare.symm.trans hmap)]

/-- The text is kept, and the extension of artifacts leads out of a folder that is made. -/
def upward : Settings := { keeping with outputExtension := "/../a.dlb" }

/-- **A source can be replaced.** A map with the extension of artifacts is, as its artifact is put
under its own path; and one that has the extension of texts is replaced by its text, where the
extension of artifacts has a `/` in it. -/
theorem source_replaced :
    (artifactPath .initial ⟨"a.dlb"⟩ = ⟨"a.dlb"⟩ ∧
      (compiling .initial ⟨"a.dlb"⟩ (loneMap "a.dlb")).1.toOption = some ⟨"a.dlb"⟩ ∧
      FileTree.file? (loneMap "a.dlb") ["a.dlb"] = some [0x7B, 0x7D] ∧
      FileTree.file? (compiling .initial ⟨"a.dlb"⟩ (loneMap "a.dlb")).2 ["a.dlb"] ≠
        some [0x7B, 0x7D]) ∧
    (textPath upward ⟨"a.normalized.json"⟩ = ⟨"a.normalized./../a.normalized.json"⟩ ∧
      (compiling upward ⟨"a.normalized.json"⟩ (loneMap "a.normalized.json")).1.toOption =
        some ⟨"a.normalized./../a.dlb"⟩ ∧
      FileTree.file? (loneMap "a.normalized.json") ["a.normalized.json"] = some [0x7B, 0x7D] ∧
      FileTree.file? (compiling upward ⟨"a.normalized.json"⟩ (loneMap "a.normalized.json")).2
        ["a.normalized.json"] ≠ some [0x7B, 0x7D]) := by
  decide +kernel

end Compile

end MapDocument
