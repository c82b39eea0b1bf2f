import MapDocument.Proofs.CommandLine
import MapDocument.Proofs.Compile.Overwriting
/-!
# Command line — artifacts at the end of a run

In a run that succeeds every document has been compiled, and its artifact was
read at its path at one time. It is at the end, unless a later document was put
at the same place; and it is of the text that the document had before the run,
unless an earlier one was put at the place of it. Artifacts are put at one place
when the stems of their documents are the same and so are their folders; the last
of these is left, but for texts that are kept of other documents.
-/

namespace MapDocument.CommandLine

open Compile (artifactPath binaryOf? textPath)
open FileTree (Rewritten)

section Disks

variable {σ : Type} [Disk (StateM σ)] {tree : σ → FileTree} {settings : Settings}
  {i j k job : Job} {before after : List Job} {s : σ}

/-! ## What jobs change -/

/-- A job changes no file but at the places of its outputs. -/
theorem rewritten_running (h : Disk.Holds tree) (settings : Settings) (job : Job) (s : σ) :
    Rewritten (job.outputs settings) (tree s) (tree (job.running settings s).2) := by
  cases hmode : job.mode with
  | check =>
    rw [tree_running_check h hmode]
    exact .refl _ _
  | compile =>
    rw [running_compile hmode, Job.outputs, hmode]
    exact Compile.rewritten_compiling h settings job.source s

/-- **Jobs change no file but at the places of their outputs.** -/
theorem rewritten_runJobs (h : Disk.Holds tree) (settings : Settings) (js : List Job) (s : σ) :
    Rewritten (js.flatMap (·.outputs settings)) (tree s)
      (tree (runJobs (m := StateM σ) settings js s).2) := by
  induction js generalizing s with
  | nil => exact .refl _ _
  | cons job rest ih =>
    rw [runJobs_cons, List.flatMap_cons]
    exact .trans ((rewritten_running h settings job s).mono (List.subset_append_left _ _))
      ((ih _).mono (List.subset_append_right _ _))

/-! ## Runs that succeed -/

/-- Jobs are handled on the disk that those before them leave behind. -/
theorem runJobs_append (settings : Settings) (before after : List Job) (s : σ) :
    runJobs (m := StateM σ) settings (before ++ after) s =
      ((runJobs (m := StateM σ) settings before s).1 ++
          (runJobs (m := StateM σ) settings after
            (runJobs (m := StateM σ) settings before s).2).1,
        (runJobs (m := StateM σ) settings after
          (runJobs (m := StateM σ) settings before s).2).2) := by
  induction before generalizing s with
  | nil => rfl
  | cons job before ih => rw [List.cons_append, runJobs_cons, ih, runJobs_cons, List.cons_append]

/-- One that is handled among others is handled on what those before it leave, and leaves it to
those after it. -/
theorem runJobs_snd (settings : Settings) (before : List Job) (k : Job) (after : List Job) (s : σ) :
    (runJobs (m := StateM σ) settings (before ++ k :: after) s).2 =
      (runJobs (m := StateM σ) settings after
        (k.running settings (runJobs (m := StateM σ) settings before s).2).2).2 := by
  rw [runJobs_append, runJobs_cons]

theorem runJobs_nil (settings : Settings) (s : σ) :
    (runJobs (m := StateM σ) settings [] s).2 = s := rfl

/-- No job fails. -/
def Succeed (settings : Settings) (js : List Job) (s : σ) : Prop :=
  ∀ a ∈ (runJobs (m := StateM σ) settings js s).1, ∃ text, a.2 = .ok text

/-- A run succeeds when no job fails. -/
theorem succeed_of_succeeded {arguments : List String} (hhelp : wantsHelp arguments = false)
    (hok : (run (m := StateM σ) arguments s).1.succeeded = true) :
    Succeed (settingsOf s).1 (jobs arguments) (settingsOf s).2 := by
  intro a ha
  obtain ⟨job, answer⟩ := a
  cases answer with
  | ok text => exact ⟨text, rfl⟩
  | error f =>
    rw [run_eq hhelp] at hok
    rw [succeeded_eq_false.2 ⟨job, f, ha⟩] at hok
    cases hok

/-- It leaves what its jobs leave. -/
theorem run_snd {arguments : List String} (hhelp : wantsHelp arguments = false) (s : σ) :
    (run (m := StateM σ) arguments s).2 =
      (runJobs (m := StateM σ) (settingsOf s).1 (jobs arguments) (settingsOf s).2).2 := by
  rw [run_eq hhelp]

/-- Then each is done after those before it. -/
theorem Succeed.running (h : Succeed settings (before ++ k :: after) s) :
    ∃ text, (k.running settings (runJobs (m := StateM σ) settings before s).2).1 = .ok text := by
  have hmem : (k, (k.running settings (runJobs (m := StateM σ) settings before s).2).1) ∈
      (runJobs (m := StateM σ) settings (before ++ k :: after) s).1 := by
    rw [runJobs_append, runJobs_cons]
    exact List.mem_append_right _ List.mem_cons_self
  exact h _ hmem

/-- **A job that is done to compile a document** leaves an artifact of the text that it read,
at a path that can be of a file. -/
theorem stored_of_running (h : Disk.Holds tree) (hmode : k.mode = .compile) {text : String}
    (hok : (k.running settings s).1 = .ok text) :
    Path.Names (Path.lastName (artifactPath settings k.source).reversed) ∧
      ∃ content binary artifact, (tree s).read k.source = .ok content ∧ binaryOf? content = some binary ∧
        Artifact.decompress artifact = .ok binary ∧
        (tree (k.running settings s).2).read (artifactPath settings k.source) = .ok artifact := by
  have hcompiled : ∃ out, (Compile.compiling settings k.source s).1 = .ok out := by
    have hrun : (k.run (m := StateM σ) settings).run s = (.ok text, (k.running settings s).2) :=
      Prod.ext hok rfl
    rw [Job.run, hmode] at hrun
    obtain ⟨out, s', hrun, -⟩ := Compile.run_bind_eq_ok.1 hrun
    exact ⟨out, congrArg Prod.fst hrun⟩
  obtain ⟨out, hout⟩ := hcompiled
  obtain ⟨rfl, content, text, m, binary, artifact, hread, hdecode, hmap, hencode, hartifact,
    hstored⟩ := (Compile.compileFile_effects h settings k.source s).written out hout
  refine ⟨Compile.names_of_compiling h hout, content, binary, artifact, hread,
    Compile.binaryOf?_eq_some hdecode hmap hencode, hartifact, ?_⟩
  rw [running_compile hmode]
  exact hstored.artifact

/-! ## The last document at a place -/

/-- A file is as it was where no job has an output. -/
theorem file?_runJobs (h : Disk.Holds tree) {js : List Job} {l : Location}
    (hne : ∀ j ∈ js, ∀ p ∈ j.outputs settings, (tree s).place p ≠ l) :
    (tree (runJobs (m := StateM σ) settings js s).2).file? l = (tree s).file? l := by
  rcases (rewritten_runJobs h settings js s).files l with hsame | ⟨p, hp, -, hl⟩
  · exact hsame
  · obtain ⟨j, hj, hp⟩ := List.mem_flatMap.1 hp
    exact absurd hl.symm (hne j hj p hp)

/-- Places of paths are the same after jobs. -/
theorem place_runJobs (h : Disk.Holds tree) (js : List Job) (p : Path) :
    (tree (runJobs (m := StateM σ) settings js s).2).place p = (tree s).place p :=
  FileTree.place_congr (rewritten_runJobs h settings js s).here p

/-- What was put at the path of an artifact is read there at the end, as the file that is then at
its place. -/
theorem read_of_running (h : Disk.Holds tree) (hok : Succeed settings (before ++ i :: after) s)
    (hmode : i.mode = .compile) {content : Bytes}
    (hfile : (tree (runJobs (m := StateM σ) settings (before ++ i :: after) s).2).file?
      ((tree s).place (artifactPath settings i.source)) = some content) :
    (tree (runJobs (m := StateM σ) settings (before ++ i :: after) s).2).read
      (artifactPath settings i.source) = .ok content := by
  obtain ⟨text, hanswer⟩ := hok.running
  obtain ⟨-, _, _, _, -, -, -, hread⟩ := stored_of_running h hmode hanswer
  rw [runJobs_snd] at hfile ⊢
  refine (rewritten_runJobs h settings after _).read_of_file? hread ?_
  rw [FileTree.place_congr (rewritten_running h settings i _).here, place_runJobs h]
  exact hfile

/-- **The last document that is put at a place is there in the end.** No later job has an output
there, and no earlier one at the place of its text. Then its artifact is read at the paths of all
that were put there. -/
theorem last_artifact (h : Disk.Holds tree) (hok : Succeed settings (before ++ k :: after) s)
    (hmode : k.mode = .compile)
    (hbefore : ∀ j ∈ before, ∀ p ∈ j.outputs settings, (tree s).place p ≠ (tree s).place k.source)
    (hafter : ∀ j ∈ after, ∀ p ∈ j.outputs settings,
      (tree s).place p ≠ (tree s).place (artifactPath settings k.source)) :
    ∃ content binary artifact, (tree s).file? ((tree s).place k.source) = some content ∧
      binaryOf? content = some binary ∧ Artifact.decompress artifact = .ok binary ∧
      ∀ i ∈ before ++ [k], i.mode = .compile →
        (tree s).place (artifactPath settings i.source) =
          (tree s).place (artifactPath settings k.source) →
        (tree (runJobs (m := StateM σ) settings (before ++ k :: after) s).2).read
          (artifactPath settings i.source) = .ok artifact := by
  obtain ⟨text, hanswer⟩ := hok.running
  obtain ⟨-, content, binary, artifact, hread, htext, hartifact, hstored⟩ :=
    stored_of_running h hmode hanswer
  refine ⟨content, binary, artifact, ?_, htext, hartifact, ?_⟩
  · -- no job before has changed the text
    obtain ⟨-, -, hentry⟩ := FileTree.read_eq_ok.1 hread
    rw [place_runJobs h] at hentry
    rw [← file?_runJobs h hbefore]
    exact FileTree.file?_eq_some.2 hentry
  · have hfile : (tree (runJobs (m := StateM σ) settings (before ++ k :: after) s).2).file?
        ((tree s).place (artifactPath settings k.source)) = some artifact := by
      obtain ⟨-, -, hentry⟩ := FileTree.read_eq_ok.1 hstored
      have hplace (p : Path) : (tree (k.running settings
          (runJobs (m := StateM σ) settings before s).2).2).place p = (tree s).place p := by
        rw [FileTree.place_congr (rewritten_running h settings k _).here, place_runJobs h]
      rw [hplace] at hentry
      rw [runJobs_snd, file?_runJobs h]
      · exact FileTree.file?_eq_some.2 hentry
      · intro j hj p hp
        rw [hplace]
        exact hafter j hj p hp
    intro i hi himode hplace
    rw [← hplace] at hfile
    rcases List.mem_append.1 hi with hi | hi
    · obtain ⟨front, back, rfl⟩ := List.append_of_mem hi
      rw [List.append_assoc, List.cons_append] at hok hfile ⊢
      exact read_of_running h hok himode hfile
    · rw [List.mem_singleton.1 hi] at hfile ⊢
      exact read_of_running h hok hmode hfile

/-- Two documents whose artifacts have one name, in one folder: the stem is the same, and so is the
place of their folders unless there is a folder for artifacts. -/
def ShareName (settings : Settings) (t : FileTree) (i j : Job) : Prop :=
  i.source.parts.stem = j.source.parts.stem ∧
    (settings.outputFolder? = none → t.place i.source.parts.folder = t.place j.source.parts.folder)

/-- **Two documents are put at one place** when their artifacts share their name. -/
theorem place_artifactPath_eq (h : Disk.Holds tree) {js : List Job} (hok : Succeed settings js s)
    (hslash : '/' ∉ settings.outputExtension.toList) (hi : i ∈ js) (hj : j ∈ js)
    (himode : i.mode = .compile) (hjmode : j.mode = .compile) :
    (tree s).place (artifactPath settings i.source) =
        (tree s).place (artifactPath settings j.source) ↔ ShareName settings (tree s) i j := by
  have hnames {k : Job} (hk : k ∈ js) (hmode : k.mode = .compile) :
      Path.Names (k.source.outputName settings.outputExtension).toList := by
    obtain ⟨before, after, rfl⟩ := List.append_of_mem hk
    obtain ⟨text, hanswer⟩ := hok.running
    obtain ⟨hnames, -⟩ := stored_of_running h hmode hanswer
    rwa [artifactPath, FileTree.lastName_output hslash] at hnames
  exact FileTree.place_output_eq_place_output hslash (hnames hi himode) (hnames hj hjmode)

/-- The outputs of a job are those of a document that it compiles. -/
theorem Job.eq_of_mem_outputs {p : Path} (h : p ∈ job.outputs settings) :
    job.mode = .compile ∧ (p = artifactPath settings job.source ∨
      settings.keepsText = true ∧ p = textPath settings job.source) := by
  cases hmode : job.mode with
  | check =>
    rw [Job.outputs, hmode] at h
    cases h
  | compile =>
    rw [Job.outputs, hmode] at h
    exact ⟨rfl, Compile.eq_of_mem_written h⟩

/-- **Of the documents whose artifacts share a name the last is left**, if the text that is kept of
no later one is put there. -/
theorem last_of_name (h : Disk.Holds tree) (hok : Succeed settings (before ++ k :: after) s)
    (hslash : '/' ∉ settings.outputExtension.toList) (hmode : k.mode = .compile)
    (hbefore : ∀ j ∈ before, ∀ p ∈ j.outputs settings, (tree s).place p ≠ (tree s).place k.source)
    (hlast : ∀ j ∈ after, j.mode = .compile → ¬ ShareName settings (tree s) j k)
    (htexts : settings.keepsText = true → ∀ j ∈ after, j.mode = .compile →
      (tree s).place (textPath settings j.source) ≠
        (tree s).place (artifactPath settings k.source)) :
    ∃ content binary artifact, (tree s).file? ((tree s).place k.source) = some content ∧
      binaryOf? content = some binary ∧ Artifact.decompress artifact = .ok binary ∧
      ∀ i ∈ before ++ k :: after, i.mode = .compile → ShareName settings (tree s) i k →
        (tree (runJobs (m := StateM σ) settings (before ++ k :: after) s).2).read
          (artifactPath settings i.source) = .ok artifact := by
  have hplace {i : Job} (hi : i ∈ before ++ k :: after) (himode : i.mode = .compile) :=
    place_artifactPath_eq h hok hslash hi (List.mem_append_right _ List.mem_cons_self) himode hmode
  have hafter : ∀ j ∈ after, ∀ p ∈ j.outputs settings,
      (tree s).place p ≠ (tree s).place (artifactPath settings k.source) := by
    intro j hj p hp hsame
    obtain ⟨hjmode, hartifact | ⟨hkeeps, htext⟩⟩ := Job.eq_of_mem_outputs hp
    · rw [hartifact] at hsame
      have hmem := List.mem_append_right before (List.mem_cons_of_mem k hj)
      exact hlast j hj hjmode ((hplace hmem hjmode).1 hsame)
    · rw [htext] at hsame
      exact htexts hkeeps j hj hjmode hsame
  obtain ⟨content, binary, artifact, hfile, hbinary, hartifact, hread⟩ :=
    last_artifact h hok hmode hbefore hafter
  refine ⟨content, binary, artifact, hfile, hbinary, hartifact, fun i hi himode hshare => ?_⟩
  have hmem : i ∈ before ++ [k] := by
    rcases List.mem_append.1 hi with hi | hi
    · exact List.mem_append_left _ hi
    · rcases List.mem_cons.1 hi with rfl | hi
      · exact List.mem_append_right _ (List.mem_singleton.2 rfl)
      · exact absurd hshare (hlast i hi himode)
  exact hread i hmem himode ((hplace hi himode).2 hshare)

end Disks

/-! ## Whole runs -/

/-- What is left of documents at the end of a run. -/
structure Lasting {σ : Type} [Disk (StateM σ)] (tree : σ → FileTree) (arguments : List String)
    (s : σ) : Prop where
  /-- The last document that is put at a place is read there, with the content that it had before
  the run, whatever else was put there before. -/
  artifacts : ∀ before k after, jobs arguments = before ++ k :: after → k.mode = .compile →
    (∀ j ∈ before, ∀ p ∈ j.outputs (settingsOf s).1,
      (tree s).place p ≠ (tree s).place k.source) →
    (∀ j ∈ after, ∀ p ∈ j.outputs (settingsOf s).1,
      (tree s).place p ≠ (tree s).place (artifactPath (settingsOf s).1 k.source)) →
    ∃ content binary artifact, (tree s).file? ((tree s).place k.source) = some content ∧
      binaryOf? content = some binary ∧ Artifact.decompress artifact = .ok binary ∧
      ∀ i ∈ before ++ [k], i.mode = .compile →
        (tree s).place (artifactPath (settingsOf s).1 i.source) =
          (tree s).place (artifactPath (settingsOf s).1 k.source) →
        (tree (run (m := StateM σ) arguments s).2).read
          (artifactPath (settingsOf s).1 i.source) = .ok artifact
  /-- Which documents are put at one place. -/
  shared : '/' ∉ (settingsOf s).1.outputExtension.toList →
    ∀ i ∈ jobs arguments, ∀ j ∈ jobs arguments, i.mode = .compile → j.mode = .compile →
      ((tree s).place (artifactPath (settingsOf s).1 i.source) =
          (tree s).place (artifactPath (settingsOf s).1 j.source) ↔
        ShareName (settingsOf s).1 (tree s) i j)
  /-- Of those that share a name the last is read at the paths of all, if the text that is kept of
  no later document is put there and nothing at the place of its own text before. -/
  last : '/' ∉ (settingsOf s).1.outputExtension.toList →
    ∀ before k after, jobs arguments = before ++ k :: after → k.mode = .compile →
    (∀ j ∈ before, ∀ p ∈ j.outputs (settingsOf s).1,
      (tree s).place p ≠ (tree s).place k.source) →
    (∀ j ∈ after, j.mode = .compile → ¬ ShareName (settingsOf s).1 (tree s) j k) →
    ((settingsOf s).1.keepsText = true → ∀ j ∈ after, j.mode = .compile →
      (tree s).place (textPath (settingsOf s).1 j.source) ≠
        (tree s).place (artifactPath (settingsOf s).1 k.source)) →
    ∃ content binary artifact, (tree s).file? ((tree s).place k.source) = some content ∧
      binaryOf? content = some binary ∧ Artifact.decompress artifact = .ok binary ∧
      ∀ i ∈ jobs arguments, i.mode = .compile → ShareName (settingsOf s).1 (tree s) i k →
        (tree (run (m := StateM σ) arguments s).2).read
          (artifactPath (settingsOf s).1 i.source) = .ok artifact

/-- **What is left at the end of a run that succeeds.** At the path of each artifact the document
is read that was put there last, as it was before the run if no document before it was put at
the place of its text. -/
theorem run_lasting {σ : Type} [Disk (StateM σ)] {tree : σ → FileTree} (h : Disk.Holds tree)
    {arguments : List String} {s : σ} (hhelp : wantsHelp arguments = false)
    (hok : (run (m := StateM σ) arguments s).1.succeeded = true) : Lasting tree arguments s := by
  have hsucceed := succeed_of_succeeded hhelp hok
  have hsame := tree_settingsOf h s
  refine ⟨?_, ?_, ?_⟩
  · intro before k after hjobs hmode
    rw [hjobs] at hsucceed
    have hlast := last_artifact h hsucceed hmode
    rw [hsame] at hlast
    rw [run_snd hhelp, hjobs]
    exact hlast
  · intro hslash i hi j hj himode hjmode
    have hshared := place_artifactPath_eq h hsucceed hslash hi hj himode hjmode
    rwa [hsame] at hshared
  · intro hslash before k after hjobs hmode
    rw [hjobs] at hsucceed
    have hlast := last_of_name h hsucceed hslash hmode
    rw [hsame] at hlast
    rw [run_snd hhelp, hjobs]
    exact hlast

/-- The artifacts of two documents with two stems are at two places, and both can be read after the
run. -/
theorem run_lasting_twoMaps :
    (Disk.Holds (fun t : FileTree => t) ∧ wantsHelp ["a.json", "b.json"] = false ∧
      (run (m := StateM FileTree) ["a.json", "b.json"] (twoMaps "x")).1.succeeded = true) ∧
    (twoMaps "x").place ⟨"x/a.dlb"⟩ ≠ (twoMaps "x").place ⟨"x/b.dlb"⟩ ∧
    ∃ first second,
      Artifact.decompress first = .ok Compile.bareBinary ∧
      Artifact.decompress second = .ok Compile.bareBinary ∧
      FileTree.read (run (m := StateM FileTree) ["a.json", "b.json"] (twoMaps "x")).2 ⟨"x/a.dlb"⟩ =
        .ok first ∧
      FileTree.read (run (m := StateM FileTree) ["a.json", "b.json"] (twoMaps "x")).2 ⟨"x/b.dlb"⟩ =
        .ok second := by
  have hhelp : wantsHelp ["a.json", "b.json"] = false := by decide
  have hok : (run (m := StateM FileTree) ["a.json", "b.json"] (twoMaps "x")).1.succeeded = true := by
    decide +kernel
  obtain ⟨hartifacts, hshared, hlast⟩ := run_lasting Disk.holds_fileTree hhelp hok
  have hpaths : artifactPath (settingsOf (twoMaps "x")).1 ⟨"a.json"⟩ = ⟨"x/a.dlb"⟩ ∧
      artifactPath (settingsOf (twoMaps "x")).1 ⟨"b.json"⟩ = ⟨"x/b.dlb"⟩ := by decide +kernel
  have hcontents : ∀ source ∈ ["a.json", "b.json"],
      (twoMaps "x").file? ((twoMaps "x").place ⟨source⟩) = some [0x7B, 0x7D] := by decide +kernel
  have hslash : '/' ∉ (settingsOf (twoMaps "x")).1.outputExtension.toList := by decide +kernel
  obtain ⟨content, binary, first, hfile, htext, hfirst, hread⟩ :=
    hartifacts [] ⟨.compile, ⟨"a.json"⟩⟩ [⟨.compile, ⟨"b.json"⟩⟩] rfl rfl nofun (by decide +kernel)
  obtain ⟨content', binary', second, hfile', htext', hsecond, hread'⟩ :=
    hlast hslash [⟨.compile, ⟨"a.json"⟩⟩] ⟨.compile, ⟨"b.json"⟩⟩ [] rfl rfl (by decide +kernel)
      (fun _ => nofun) (fun _ _ => nofun)
  refine ⟨⟨Disk.holds_fileTree, hhelp, hok⟩, ?_, first, second, ?_, ?_, ?_, ?_⟩
  · have hstems := hshared hslash ⟨.compile, ⟨"a.json"⟩⟩ (by decide)
      ⟨.compile, ⟨"b.json"⟩⟩ (by decide) rfl rfl
    rw [hpaths.1, hpaths.2] at hstems
    intro hsame
    have hne : (⟨"a.json"⟩ : Path).parts.stem ≠ (⟨"b.json"⟩ : Path).parts.stem := by decide
    exact hne (hstems.1 hsame).1
  · cases (hcontents "a.json" (by decide)).symm.trans hfile
    rw [hfirst, Option.some.inj (htext.symm.trans Compile.binaryOf?_bare)]
  · cases (hcontents "b.json" (by decide)).symm.trans hfile'
    rw [hsecond, Option.some.inj (htext'.symm.trans Compile.binaryOf?_bare)]
  · have hthere := hread ⟨.compile, ⟨"a.json"⟩⟩ (List.mem_singleton.2 rfl) rfl rfl
    rwa [hpaths.1] at hthere
  · have hthere := hread' ⟨.compile, ⟨"b.json"⟩⟩ (by decide) rfl ⟨rfl, fun _ => rfl⟩
    rwa [hpaths.2] at hthere

/-- A map without anything and one with a light, at two places, with settings beside them. -/
def unlikeMaps (bare light : Location) (settings : String) : FileTree where
  entries := [(bare, .file [0x7B, 0x7D]),
    (light, .file (Utf8.encode "\x7b\"point_lights\":[\x7b\x7d]\x7d")),
    (["x"], .folder), (["y"], .folder), (["mapc.json"], .file (Utf8.encode settings))]
  here := []

/-- The binary form of a map with a light. -/
def lightBinary : Bytes :=
  [1, 0, 0, 0] ++ List.replicate 12 0 ++ [1, 0, 0, 0] ++
    (List.replicate 3 [0, 0, 0x80, 0x3F]).flatten ++ List.replicate 12 0 ++ [0, 0, 0xA0, 0x40]

/-- Two maps of one name in two folders, whose artifacts are put into a third. -/
def namesakes : FileTree :=
  unlikeMaps ["x", "a.json"] ["y", "a.json"] "\x7b\"output_dir\":\"out\"\x7d"

/-- A map, and one that has the name of the text that is kept of it. -/
def shadowed : FileTree :=
  unlikeMaps ["a.json"] ["a.normalized.json"] "\x7b\"dump_json\":true\x7d"

/-- Two maps without anything, of which the artifact of one has the name of the text that is kept
of the other. -/
def overlaid : FileTree where
  entries := [(["a.normalized.txt"], .file [0x7B, 0x7D]), (["a.txt"], .file [0x7B, 0x7D]),
    (["mapc.json"], .file (Utf8.encode
      "\x7b\"dump_json\":true,\"output_extension\":\"json\"\x7d"))]
  here := []

/-- What is read after a run at the path of the artifact of a document is no artifact of the map
that the document held before. -/
def Loses (arguments : List String) (t : FileTree) (document : String) : Prop :=
  wantsHelp arguments = false ∧ (run (m := StateM FileTree) arguments t).1.succeeded = true ∧
    ⟨.compile, ⟨document⟩⟩ ∈ jobs arguments ∧
    ∃ content binary, t.read ⟨document⟩ = .ok content ∧ binaryOf? content = some binary ∧
      ∃ found, FileTree.read (run (m := StateM FileTree) arguments t).2
          (artifactPath (settingsOf t).1 ⟨document⟩) = .ok found ∧
        Artifact.decompress found ≠ .ok binary

/-- A document is lost if what is compiled later is put at the same place. -/
theorem loses_namesakes : Loses ["x/a.json", "y/a.json"] namesakes "x/a.json" := by
  have hhelp : wantsHelp ["x/a.json", "y/a.json"] = false := by decide
  have hok : (run (m := StateM FileTree) ["x/a.json", "y/a.json"] namesakes).1.succeeded = true := by
    decide +kernel
  refine ⟨hhelp, hok, by decide, [0x7B, 0x7D], Compile.bareBinary, rfl, Compile.binaryOf?_bare, ?_⟩
  have hjobs : jobs ["x/a.json", "y/a.json"] =
      [⟨.compile, ⟨"x/a.json"⟩⟩] ++ ⟨.compile, ⟨"y/a.json"⟩⟩ :: [] := rfl
  have hsucceed := succeed_of_succeeded hhelp hok
  rw [hjobs] at hsucceed
  obtain ⟨content, binary, artifact, hfile, hbinary, hartifact, hread⟩ :=
    last_artifact Disk.holds_fileTree hsucceed rfl (by decide +kernel) nofun
  refine ⟨artifact, ?_, ?_⟩
  · rw [run_snd hhelp, hjobs]
    exact hread ⟨.compile, ⟨"x/a.json"⟩⟩ (by decide) rfl (by decide +kernel)
  · -- it is of the other document
    have hlight : (FileTree.file? (settingsOf namesakes).2 ["y", "a.json"]).bind binaryOf? =
        some lightBinary := by decide +kernel
    have hplace : FileTree.place (settingsOf namesakes).2 ⟨"y/a.json"⟩ = ["y", "a.json"] := by
      decide +kernel
    rw [hplace] at hfile
    rw [hfile, Option.bind_some, hbinary] at hlight
    rw [hartifact, Option.some.inj hlight]
    exact fun hsame => absurd (Except.ok.inj hsame) (by decide)

/-- A document is lost if it is replaced before it is compiled. -/
theorem loses_shadowed :
    Loses ["a.json", "a.normalized.json"] shadowed "a.normalized.json" := by
  have hhelp : wantsHelp ["a.json", "a.normalized.json"] = false := by decide
  -- what is read for the second document is the text that was kept of the first
  obtain ⟨hok, hbare⟩ :
      (run (m := StateM FileTree) ["a.json", "a.normalized.json"] shadowed).1.succeeded = true ∧
      (FileTree.file? (runJobs (m := StateM FileTree) (settingsOf shadowed).1
        [⟨.compile, ⟨"a.json"⟩⟩] (settingsOf shadowed).2).2 ["a.normalized.json"]).bind binaryOf? =
          some Compile.bareBinary := by decide +kernel
  refine ⟨hhelp, hok, by decide, _, lightBinary, rfl, by decide +kernel, ?_⟩
  have hjobs : jobs ["a.json", "a.normalized.json"] =
      [⟨.compile, ⟨"a.json"⟩⟩] ++ ⟨.compile, ⟨"a.normalized.json"⟩⟩ :: [] := rfl
  have hsucceed := succeed_of_succeeded hhelp hok
  rw [hjobs] at hsucceed
  obtain ⟨text, hanswer⟩ := hsucceed.running
  obtain ⟨-, content, binary, artifact, hread, hbinary, hartifact, hstored⟩ :=
    stored_of_running Disk.holds_fileTree rfl hanswer
  refine ⟨artifact, ?_, ?_⟩
  · rw [run_snd hhelp, hjobs, runJobs_snd, runJobs_nil]
    exact hstored
  · have hplace : FileTree.place (settingsOf shadowed).2 ⟨"a.normalized.json"⟩ =
        ["a.normalized.json"] := by decide +kernel
    obtain ⟨-, -, hentry⟩ := FileTree.read_eq_ok.1 hread
    rw [place_runJobs Disk.holds_fileTree, hplace] at hentry
    rw [FileTree.file?_eq_some.2 hentry, Option.bind_some, hbinary] at hbare
    rw [hartifact, Option.some.inj hbare]
    exact fun hsame => absurd (Except.ok.inj hsame) (by decide)

/-- A document is lost if the text that is kept of a later one is put at the place of its
artifact. -/
theorem loses_overlaid : Loses ["a.normalized.txt", "a.txt"] overlaid "a.normalized.txt" := by
  obtain ⟨hok, htaken⟩ :
      (run (m := StateM FileTree) ["a.normalized.txt", "a.txt"] overlaid).1.succeeded = true ∧
      (FileTree.read (run (m := StateM FileTree) ["a.normalized.txt", "a.txt"] overlaid).2
        ⟨"a.normalized.json"⟩).toOption.map (·.take 4) = some [0x7B, 0x0A, 0x20, 0x20] := by
    decide +kernel
  have hpath : artifactPath (settingsOf overlaid).1 ⟨"a.normalized.txt"⟩ = ⟨"a.normalized.json"⟩ := by
    decide +kernel
  obtain ⟨found, hfound, hhead⟩ := Option.map_eq_some_iff.1 htaken
  refine ⟨by decide, hok, by decide, [0x7B, 0x7D], Compile.bareBinary, rfl, Compile.binaryOf?_bare,
    found, hpath ▸ toOption_eq_some.1 hfound, fun hartifact => ?_⟩
  -- an artifact would begin with the length of the map
  obtain ⟨n, stream, trailer, -, rfl, -, rfl⟩ := Artifact.decompress_eq_ok.1 hartifact
  rw [List.take_left' (length_littleEndian ..)] at hhead
  exact absurd hhead (by decide)

/-- **An artifact can be lost in a run that succeeds.** Of two documents of the same name whose
artifacts are put into one folder, the second is left. A document that has the name of the text
that is kept of another is replaced by that before it is compiled; and an artifact that has this
name is replaced by it after. -/
theorem artifact_lost :
    Loses ["x/a.json", "y/a.json"] namesakes "x/a.json" ∧
      Loses ["a.json", "a.normalized.json"] shadowed "a.normalized.json" ∧
      Loses ["a.normalized.txt", "a.txt"] overlaid "a.normalized.txt" :=
  ⟨loses_namesakes, loses_shadowed, loses_overlaid⟩

end MapDocument.CommandLine
