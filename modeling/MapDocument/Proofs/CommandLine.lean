import Mathlib.Data.List.Pairwise
import MapDocument.CommandLine
import MapDocument.Proofs.Compile.Abreast
/-!
# Command line — documents on their own

Each path among the arguments is handled once, in order, in the mode that the
switch before it sets, whatever became of those before it. Where the outputs of
no document are in the way of another, each document comes to what it would
come to alone, and leaves the same behind.
-/

namespace MapDocument.CommandLine

open FileTree (Abreast Alike Grown namesOf)
open Compile (RunsAlike)

/-! ## Arguments -/

/-- The switch that sets a mode. -/
def Mode.switch : Mode → String
  | compile => "--compile"
  | check => "--check"

/-- An argument that sets a mode. -/
def isSwitch (argument : String) : Bool :=
  argument = Mode.compile.switch || argument = Mode.check.switch

/-- The mode after some arguments: that of the last switch among them, or to compile. -/
def Preceding (mode : Mode) (before : List String) : Prop :=
  (∃ front back, before = front ++ mode.switch :: back ∧
      ∀ argument ∈ back, isSwitch argument = false) ∨
    mode = .compile ∧ ∀ argument ∈ before, isSwitch argument = false

/-- The mode that arguments leave behind. -/
def modeAfter (mode : Mode) : List String → Mode
  | [] => mode
  | argument :: rest =>
    if argument = "--compile" then modeAfter .compile rest
    else if argument = "--check" then modeAfter .check rest
    else modeAfter mode rest

theorem jobsIn_append (mode : Mode) (before after : List String) :
    jobsIn mode (before ++ after) = jobsIn mode before ++ jobsIn (modeAfter mode before) after := by
  induction before generalizing mode with
  | nil => rfl
  | cons argument before ih =>
    rw [List.cons_append, jobsIn, jobsIn, modeAfter]
    split
    · exact ih .compile
    · split
      · exact ih .check
      · rw [ih, List.cons_append]

/-- Every argument is handled that is not a switch. -/
theorem map_jobsIn (mode : Mode) (arguments : List String) :
    (jobsIn mode arguments).map (·.source.text) = arguments.filter fun a => !isSwitch a := by
  induction arguments generalizing mode with
  | nil => rfl
  | cons argument arguments ih =>
    rw [jobsIn]
    by_cases hcompile : argument = "--compile"
    · rw [if_pos hcompile, ih, List.filter_cons_of_neg (by simp [isSwitch, hcompile, Mode.switch])]
    · by_cases hcheck : argument = "--check"
      · rw [if_neg hcompile, if_pos hcheck, ih,
          List.filter_cons_of_neg (by simp [isSwitch, hcheck, Mode.switch])]
      · rw [if_neg hcompile, if_neg hcheck, List.map_cons, ih,
          List.filter_cons_of_pos (by simp [isSwitch, hcompile, hcheck, Mode.switch])]

/-- That is the mode of the last switch among them, if there is one. -/
theorem modeAfter_cases (mode : Mode) (before : List String) :
    (∃ front back, before = front ++ (modeAfter mode before).switch :: back ∧
        ∀ argument ∈ back, isSwitch argument = false) ∨
      modeAfter mode before = mode ∧ ∀ argument ∈ before, isSwitch argument = false := by
  induction before generalizing mode with
  | nil => exact .inr ⟨rfl, nofun⟩
  | cons argument before ih =>
    have hset (m : Mode) (hm : argument = m.switch) :
        ∃ front back, argument :: before = front ++ (modeAfter m before).switch :: back ∧
          ∀ argument ∈ back, isSwitch argument = false := by
      rcases ih m with ⟨front, back, hbefore, hback⟩ | ⟨hsame, hnone⟩
      · exact ⟨argument :: front, back, congrArg (argument :: ·) hbefore, hback⟩
      · exact ⟨[], before, by rw [hsame, hm]; rfl, hnone⟩
    rw [modeAfter]
    by_cases hcompile : argument = "--compile"
    · rw [if_pos hcompile]
      exact .inl (hset .compile hcompile)
    · by_cases hcheck : argument = "--check"
      · rw [if_neg hcompile, if_pos hcheck]
        exact .inl (hset .check hcheck)
      · rw [if_neg hcompile, if_neg hcheck]
        rcases ih mode with ⟨front, back, hbefore, hback⟩ | ⟨hsame, hnone⟩
        · exact .inl ⟨argument :: front, back, congrArg (argument :: ·) hbefore, hback⟩
        · refine .inr ⟨hsame, fun a ha => ?_⟩
          rcases List.mem_cons.1 ha with rfl | ha
          · simp [isSwitch, Mode.switch, hcompile, hcheck]
          · exact hnone a ha

/-- A document is handled in the mode that the arguments before it leave behind. -/
theorem getElem?_jobs {before after : List String} {argument : String}
    (h : isSwitch argument = false) :
    (jobs (before ++ argument :: after))[(before.filter fun a => !isSwitch a).length]? =
      some ⟨modeAfter .compile before, ⟨argument⟩⟩ := by
  have hlength : (jobsIn .compile before).length = (before.filter fun a => !isSwitch a).length := by
    rw [← map_jobsIn .compile, List.length_map]
  obtain ⟨hcompile, hcheck⟩ := Bool.or_eq_false_iff.1 h
  have hcompile : argument ≠ "--compile" := of_decide_eq_false hcompile
  have hcheck : argument ≠ "--check" := of_decide_eq_false hcheck
  rw [jobs, jobsIn_append, ← hlength, List.getElem?_append_right (Nat.le_refl _), Nat.sub_self,
    jobsIn, if_neg hcompile, if_neg hcheck]
  rfl

/-! ## Runs -/

section Disks

variable {σ : Type} [Disk (StateM σ)] {settings : Settings} {s s' s'' : σ}

/-- What a job comes to, and the disk after it. -/
def Job.running (settings : Settings) (job : Job) (s : σ) : Except CompileFailure String × σ :=
  (job.run (m := StateM σ) settings).run s

/-- Jobs are handled one after the other, each on the disk that the one before it leaves behind. -/
inductive InOrder (settings : Settings) : σ → List (Job × Except CompileFailure String) → σ → Prop
  | nil (s : σ) : InOrder settings s [] s
  | cons {job : Job} {answers : List (Job × Except CompileFailure String)} {s s' : σ}
    (later : InOrder settings (job.running settings s).2 answers s') :
    InOrder settings s ((job, (job.running settings s).1) :: answers) s'

theorem runJobs_cons (settings : Settings) (job : Job) (rest : List Job) (s : σ) :
    runJobs (m := StateM σ) settings (job :: rest) s =
      ((job, (job.running settings s).1) ::
          (runJobs (m := StateM σ) settings rest (job.running settings s).2).1,
        (runJobs (m := StateM σ) settings rest (job.running settings s).2).2) := rfl

/-- Every job is handled, whatever became of those before it. -/
theorem inOrder_runJobs (settings : Settings) (js : List Job) (s : σ) :
    InOrder settings s (runJobs (m := StateM σ) settings js s).1
        (runJobs (m := StateM σ) settings js s).2 ∧
      (runJobs (m := StateM σ) settings js s).1.map Prod.fst = js := by
  induction js generalizing s with
  | nil => exact ⟨.nil s, rfl⟩
  | cons job rest ih =>
    obtain ⟨hlater, hmap⟩ := ih (job.running settings s).2
    rw [runJobs_cons]
    exact ⟨.cons hlater, congrArg (job :: ·) hmap⟩

/-- The settings that a run goes by. -/
def settingsOf (s : σ) : Settings × σ := Settings.readOrInitial (m := StateM σ) Settings.fileName s

/-- Reading them changes nothing. -/
theorem tree_settingsOf {tree : σ → FileTree} (h : Disk.Holds tree) (s : σ) :
    tree (settingsOf s).2 = tree s := by
  have hread : tree (Settings.read (m := StateM σ) Settings.fileName s).2 = tree s := by
    obtain ⟨hsame, -⟩ := h.read Settings.fileName s
    have hfile : Disk.read (m := StateM σ) Settings.fileName s =
        Disk.reads Settings.fileName s := rfl
    rw [Settings.read, Disk.run_bind, hfile]
    cases (Disk.reads Settings.fileName s).1 <;> exact hsame
  rw [settingsOf, Settings.readOrInitial, Disk.run_bind]
  generalize Settings.read (m := StateM σ) Settings.fileName s = found at hread ⊢
  obtain ⟨answer, s'⟩ := found
  cases answer <;> exact hread

/-- A run is that of its jobs. -/
theorem run_eq {arguments : List String} (h : wantsHelp arguments = false) (s : σ) :
    run (m := StateM σ) arguments s =
      (summary (runJobs (m := StateM σ) (settingsOf s).1 (jobs arguments) (settingsOf s).2).1,
        (runJobs (m := StateM σ) (settingsOf s).1 (jobs arguments) (settingsOf s).2).2) := by
  rw [run, h, if_neg Bool.false_ne_true]
  rfl

/-- A run fails when a job does. -/
theorem succeeded_eq_false {answers : List (Job × Except CompileFailure String)} :
    (summary answers).succeeded = false ↔ ∃ job f, (job, Except.error f) ∈ answers := by
  rw [summary, List.all_eq_false]
  constructor
  · rintro ⟨⟨job, answer⟩, hmem, hfails⟩
    cases answer with
    | ok text => exact absurd rfl hfails
    | error f => exact ⟨job, f, hmem⟩
  · rintro ⟨job, f, hmem⟩
    exact ⟨_, hmem, by simp⟩

/-- Checking a document changes nothing. -/
theorem tree_running_check {tree : σ → FileTree} (h : Disk.Holds tree) {job : Job}
    (hmode : job.mode = .check) (settings : Settings) (s : σ) :
    tree (job.running settings s).2 = tree s := by
  have hcheck := Compile.tree_checkFile h settings job.source s
  rw [Job.running, Job.run, hmode]
  simp only
  cases hrun : (Compile.checkFile settings job.source :
      ExceptT CompileFailure (StateM σ) Journal).run s with
  | mk result s' =>
    rw [hrun] at hcheck
    cases result with
    | error f => rwa [Compile.run_bind_of_error hrun]
    | ok report =>
      rw [Compile.run_bind_of_ok hrun]
      exact hcheck

/-- Compiling one changes what compiling its file does. -/
theorem running_compile {job : Job} (hmode : job.mode = .compile) (settings : Settings) (s : σ) :
    (job.running settings s).2 = (Compile.compiling settings job.source s).2 := by
  rw [Job.running, Job.run, hmode]
  simp only
  cases hrun : Compile.compiling settings job.source s with
  | mk result s' =>
    cases result with
    | error f => rw [Compile.run_bind_of_error hrun]
    | ok report => rw [Compile.run_bind_of_ok hrun]; rfl

end Disks

/-! ## Documents that are not in each other's way -/

/-- The paths that a job writes to. -/
def Job.outputs (settings : Settings) (job : Job) : List Path :=
  match job.mode with
  | .compile => Compile.written settings job.source
  | .check => []

/-- The paths that a job is about. -/
def Job.paths (settings : Settings) (job : Job) : List Path := job.source :: job.outputs settings

/-- No output of the first job is at, above or below a path of the second. -/
def Separate (settings : Settings) (t : FileTree) (i j : Job) : Prop :=
  ∀ p ∈ i.outputs settings, ∀ q ∈ j.paths settings,
    ¬ t.place p <+: t.place q ∧ ¬ t.place q <+: t.place p

instance Separate.decidable (settings : Settings) (t : FileTree) (i j : Job) :
    Decidable (Separate settings t i j) :=
  inferInstanceAs (Decidable (∀ p ∈ i.outputs settings, ∀ q ∈ j.paths settings,
    ¬ t.place p <+: t.place q ∧ ¬ t.place q <+: t.place p))

/-- In the paths of a job, `..` leads out of no place but a folder that is there; and no name
of the source is too long. -/
structure Sound (settings : Settings) (t : FileTree) (job : Job) : Prop where
  paths : ∀ p ∈ job.paths settings, t.Firm (t.origin p) (namesOf p)
  source : ∀ name ∈ namesOf job.source, name.utf8ByteSize ≤ FileTree.nameLimit

instance Sound.decidable (settings : Settings) (t : FileTree) (job : Job) :
    Decidable (Sound settings t job) :=
  decidable_of_iff ((∀ p ∈ job.paths settings, t.Firm (t.origin p) (namesOf p)) ∧
    ∀ name ∈ namesOf job.source, name.utf8ByteSize ≤ FileTree.nameLimit)
    ⟨fun h => ⟨h.1, h.2⟩, fun h => ⟨h.paths, h.source⟩⟩

/-- The tree after a job alone. -/
def Job.alone (settings : Settings) (t : FileTree) (job : Job) : FileTree :=
  (job.running settings t).2

section Jobs

variable {settings : Settings} {t u : FileTree} {i j job : Job} {l : Location} {p q : Path}

theorem mem_paths (h : p ∈ job.outputs settings) : p ∈ job.paths settings :=
  List.mem_cons_of_mem _ h

/-- What a job changes in any tree is at its outputs, or a folder above them. -/
theorem running_cases (settings : Settings) (job : Job) (u : FileTree) (l : Location) :
    FileTree.entry? (job.running settings u).2 l = u.entry? l ∨
      (∃ p ∈ job.outputs settings, l = u.place p) ∨
      (∃ p ∈ job.outputs settings, l ∈ u.trail p) ∧ u.entry? l = none ∧
        FileTree.entry? (job.running settings u).2 l = some .folder := by
  cases hmode : job.mode with
  | check =>
    have hsame := tree_running_check Disk.holds_fileTree hmode settings u
    exact .inl (by rw [hsame])
  | compile =>
    have houtputs : job.outputs settings = Compile.written settings job.source := by
      rw [Job.outputs, hmode]
    have hartifact := Compile.artifactPath_mem_written settings job.source
    rw [running_compile hmode, houtputs]
    rcases Compile.confined_compiling Disk.holds_fileTree settings job.source u l with
      hsame | hout | ⟨hkeeps, htext⟩ | ⟨hfolder, hnone⟩
    · exact .inl hsame
    · exact .inr (.inl ⟨_, hartifact, hout⟩)
    · exact .inr (.inl ⟨_, Compile.textPath_mem_written hkeeps job.source, htext⟩)
    · refine .inr (.inr ⟨⟨_, hartifact, ?_⟩, hnone⟩)
      obtain ⟨q, hq, rfl⟩ := List.mem_map.1 hfolder
      rw [Disk.parents] at hq
      cases hparent : (Compile.artifactPath settings job.source).parent? with
      | none =>
        rw [hparent] at hq
        cases hq
      | some above =>
        rw [hparent] at hq
        exact (FileTree.liesIn_of_parent hparent).mem_trail.2
          (.inl (FileTree.place_mem_trail_of_mem_ancestors hq))

/-- **A job runs alike** where the same is at its paths, and what they lead through is the same
but for more folders. -/
theorem running_alike (hclosed : t.Closed) (hhere : u.here = t.here) (hsound : Sound settings t job)
    (hgrown : ∀ p ∈ job.paths settings, ∀ l ∈ t.trail p, Grown t u l)
    (hplaces : ∀ p ∈ job.paths settings, u.entry? (t.place p) = t.entry? (t.place p)) :
    RunsAlike (job.running settings) t u := by
  have hsource : job.source ∈ job.paths settings := List.mem_cons_self
  have hread := FileTree.read_grown hclosed hhere (hsound.paths _ hsource) hsound.source
    (hgrown _ hsource) (hplaces _ hsource)
  unfold Job.running Job.run
  cases hmode : job.mode with
  | check =>
    exact .bind (Compile.checkFile_alike settings hread) fun _ _ => .of_eq rfl rfl
  | compile =>
    have hwritten {p : Path} (hp : p ∈ Compile.written settings job.source) :
        p ∈ job.paths settings := by
      refine mem_paths ?_
      rwa [Job.outputs, hmode]
    have hartifact := hwritten (Compile.artifactPath_mem_written settings job.source)
    exact .bind (Compile.compileFile_alike hclosed hhere hread (hsound.paths _ hartifact)
      (hgrown _ hartifact) fun p hp => hplaces p (hwritten hp)) fun _ _ => .of_eq rfl rfl

/-- A job leaves the folders that are there. -/
theorem folder_alone (hclosed : t.Closed) (hsound : Sound settings t job)
    (hl : t.entry? l = some .folder) : FileTree.entry? (job.alone settings t) l = some .folder :=
  have halike := running_alike hclosed rfl hsound (fun _ _ _ _ => .inl rfl) fun _ _ => rfl
  (halike.abreast.folders l).1 hl

/-! ## What one job leaves to another -/

section Pairs

variable (hclosed : t.Closed) (hi : Sound settings t i) (h : Separate settings t i j)
  (hq : q ∈ j.paths settings)
include hclosed hi h hq

/-- What is at a path of a job is as it was after another job, -/
theorem Separate.entry?_alone :
    FileTree.entry? (i.alone settings t) (t.place q) = t.entry? (t.place q) := by
  rcases running_cases settings i t (t.place q) with hsame | ⟨p, hp, hpl⟩ | ⟨⟨p, hp, hpl⟩, hnone, -⟩
  · exact hsame
  · exact absurd (by simp [hpl]) (h p hp q hq).1
  · rcases (hi.paths p (mem_paths hp)).trail_cases hclosed hpl with hfolder | habove
    · rw [hfolder] at hnone
      cases hnone
    · exact absurd habove (h p hp q hq).2

/-- and what it leads through, but for folders that were missing. -/
theorem Separate.grown_alone (hj : Sound settings t j) (hl : l ∈ t.trail q) :
    Grown t (i.alone settings t) l := by
  rcases running_cases settings i t l with hsame | ⟨p, hp, rfl⟩ | ⟨-, hnone, hfolder⟩
  · exact .inl hsame
  · rcases (hj.paths q hq).trail_cases hclosed hl with hfolder | habove
    · rw [Grown, hfolder]
      exact .inl (folder_alone hclosed hi hfolder)
    · exact absurd habove (h p hp q hq).1
  · exact .inr ⟨hnone, hfolder⟩

end Pairs

/-! ## One job after others -/

/-- A tree in which some jobs were done: it has what each of them changes when it is alone, and
else what was there. -/
structure Merged (settings : Settings) (t : FileTree) (done : List Job) (u : FileTree) : Prop where
  here : u.here = t.here
  folders : ∀ l, t.entry? l = some .folder → u.entry? l = some .folder
  changed : ∀ l, u.entry? l = t.entry? l ∨ ∃ job ∈ done,
    FileTree.entry? (job.alone settings t) l ≠ t.entry? l ∧
      u.entry? l = FileTree.entry? (job.alone settings t) l
  kept : ∀ job ∈ done, ∀ l, FileTree.entry? (job.alone settings t) l ≠ t.entry? l →
    u.entry? l = FileTree.entry? (job.alone settings t) l

/-- Jobs that are not in each other's way. -/
def Apart (settings : Settings) (t : FileTree) (i j : Job) : Prop :=
  Separate settings t i j ∧ Separate settings t j i

instance Apart.decidable (settings : Settings) (t : FileTree) (i j : Job) :
    Decidable (Apart settings t i j) :=
  inferInstanceAs (Decidable (Separate settings t i j ∧ Separate settings t j i))

variable {done : List Job}

theorem Merged.start (settings : Settings) (t : FileTree) : Merged settings t [] t where
  here := rfl
  folders _ := id
  changed _ := .inl rfl
  kept _ := nofun

/-- It does not matter in which order the jobs are given. -/
theorem Merged.of_perm {done' : List Job} (h : Merged settings t done u) (hperm : done.Perm done') :
    Merged settings t done' u where
  here := h.here
  folders := h.folders
  changed l := (h.changed l).imp_right fun ⟨job, hjob, hchanged⟩ =>
    ⟨job, hperm.subset hjob, hchanged⟩
  kept job hjob := h.kept job (hperm.symm.subset hjob)

/-- The tree after the jobs has no other content. -/
theorem Merged.unique {u' : FileTree} (h : Merged settings t done u)
    (h' : Merged settings t done u') (l : Location) : u'.entry? l = u.entry? l := by
  rcases h.changed l with hsame | ⟨job, hjob, hne, hsame⟩
  · rcases h'.changed l with hsame' | ⟨job, hjob, hne, hsame'⟩
    · rw [hsame, hsame']
    · rw [hsame', h.kept job hjob l hne]
  · rw [hsame, h'.kept job hjob l hne]

section Step

variable (hclosed : t.Closed) (hsound : ∀ i ∈ job :: done, Sound settings t i)
  (happart : ∀ i ∈ done, Apart settings t i job) (h : Merged settings t done u)
include hclosed hsound happart h

/-- **After others a job runs as it does alone.** -/
theorem Merged.running_alike : RunsAlike (job.running settings) t u := by
  have hjob := hsound job List.mem_cons_self
  have hdone {i : Job} (hi : i ∈ done) := hsound i (List.mem_cons_of_mem job hi)
  refine CommandLine.running_alike hclosed h.here hjob ?_ ?_
  · intro q hq l hl
    rcases h.changed l with hsame | ⟨i, hi, -, hsame⟩
    · exact .inl hsame
    · have hgrown := (happart i hi).1.grown_alone hclosed (hdone hi) hq hjob hl
      rwa [Grown, ← hsame] at hgrown
  · intro q hq
    rcases h.changed (t.place q) with hsame | ⟨i, hi, hne, -⟩
    · exact hsame
    · exact absurd ((happart i hi).1.entry?_alone hclosed (hdone hi) hq) hne

/-- **And leaves what it leaves alone**, with what they left. -/
theorem Merged.step : Merged settings t (job :: done) (job.running settings u).2 := by
  obtain ⟨-, habreast⟩ := h.running_alike hclosed hsound happart
  have hdone {i : Job} (hi : i ∈ done) := hsound i (List.mem_cons_of_mem job hi)
  refine ⟨habreast.here.2.trans h.here, fun l hl => (habreast.folders l).2 (h.folders l hl), ?_, ?_⟩
  · intro l
    rcases habreast.entries l with ⟨-, hsame⟩ | hsame
    · rw [hsame]
      exact (h.changed l).imp_right fun ⟨i, hi, hchanged⟩ =>
        ⟨i, List.mem_cons_of_mem job hi, hchanged⟩
    · by_cases hne : FileTree.entry? (job.alone settings t) l = t.entry? l
      · exact .inl (hsame.trans hne)
      · exact .inr ⟨job, List.mem_cons_self, hne, hsame⟩
  · intro i hi l hne
    rcases List.mem_cons.1 hi with rfl | hi
    · rcases habreast.entries l with ⟨hsame, -⟩ | hsame
      · exact absurd hsame hne
      · exact hsame
    · have hkept := h.kept i hi l hne
      have hother : ∀ p ∈ job.outputs settings, l ≠ t.place p := by
        rintro p hp rfl
        exact hne ((happart i hi).1.entry?_alone hclosed (hdone hi) (mem_paths hp))
      rcases running_cases settings job u l with hsame | ⟨p, hp, hplace⟩ | ⟨-, hnone, hfolder⟩
      · exact hsame.trans hkept
      · rw [FileTree.place_congr h.here] at hplace
        exact absurd hplace (hother p hp)
      · -- then it would make a folder where the other job took a file away
        exfalso
        have hgone : FileTree.entry? (i.alone settings t) l = none := hkept.symm.trans hnone
        have hmade : FileTree.entry? (job.alone settings t) l = some .folder := by
          rcases habreast.entries l with ⟨-, hsame⟩ | hsame
          · rw [hfolder, hnone] at hsame
            cases hsame
          · exact hsame.symm.trans hfolder
        rcases running_cases settings job t l with hsame | ⟨p, hp, hplace⟩ | ⟨-, hnone', -⟩
        · have hstays := folder_alone hclosed (hdone hi) (hsame.symm.trans hmade)
          rw [hgone] at hstays
          cases hstays
        · exact hother p hp hplace
        · exact hne (hgone.trans hnone'.symm)

end Step

theorem Apart.symm (h : Apart settings t i j) : Apart settings t j i := ⟨h.2, h.1⟩

instance : Std.Symm (Apart settings t) := ⟨fun _ _ => Apart.symm⟩

/-- **Jobs that are apart come to what they come to alone**, and leave it all behind. -/
theorem runJobs_merged {js : List Job} (hclosed : t.Closed)
    (hsound : ∀ job ∈ js, Sound settings t job) (hdone : ∀ i ∈ done, Sound settings t i)
    (hjs : js.Pairwise (Apart settings t))
    (happart : ∀ i ∈ done, ∀ job ∈ js, Apart settings t i job)
    (h : Merged settings t done u) :
    (runJobs (m := StateM FileTree) settings js u).1 =
        js.map (fun job => (job, (job.running settings t).1)) ∧
      Merged settings t (js.reverse ++ done) (runJobs (m := StateM FileTree) settings js u).2 := by
  induction js generalizing done u with
  | nil => exact ⟨rfl, h⟩
  | cons job rest ih =>
    have hjob : ∀ i ∈ job :: done, Sound settings t i := by
      intro i hi
      rcases List.mem_cons.1 hi with rfl | hi
      · exact hsound i List.mem_cons_self
      · exact hdone i hi
    have hbefore : ∀ i ∈ done, Apart settings t i job :=
      fun i hi => happart i hi job List.mem_cons_self
    obtain ⟨hfirst, hrest⟩ := List.pairwise_cons.1 hjs
    have hafter : ∀ i ∈ job :: done, ∀ later ∈ rest, Apart settings t i later := by
      intro i hi later hlater
      rcases List.mem_cons.1 hi with rfl | hi
      · exact hfirst later hlater
      · exact happart i hi later (List.mem_cons_of_mem job hlater)
    obtain ⟨hanswers, hmerged⟩ := ih
      (fun later hlater => hsound later (List.mem_cons_of_mem job hlater)) hjob hrest hafter
      (h.step hclosed hjob hbefore)
    rw [runJobs_cons, hanswers, (h.running_alike hclosed hjob hbefore).answer, List.reverse_cons,
      List.append_assoc]
    exact ⟨rfl, hmerged⟩

end Jobs

/-! ## Whole runs -/

/-- A run handles each document once, in the order of the arguments, in the mode of the switch
before it, and fails when one of them does. -/
structure Handled {σ : Type} [Disk (StateM σ)] (arguments : List String) (s : σ) : Prop where
  /-- What is handled are the arguments that are not switches. -/
  sources : (jobs arguments).map (·.source.text) = arguments.filter fun a => !isSwitch a
  /-- Each in the mode of the nearest switch before it. -/
  modes : ∀ before argument after, arguments = before ++ argument :: after →
    isSwitch argument = false → ∃ mode, Preceding mode before ∧
      (jobs arguments)[(before.filter fun a => !isSwitch a).length]? = some ⟨mode, ⟨argument⟩⟩
  /-- One after the other, whatever became of those before it. -/
  answers : ∃ answers s', InOrder (settingsOf s).1 (settingsOf s).2 answers s' ∧
    answers.map Prod.fst = jobs arguments ∧
    run (m := StateM σ) arguments s = (summary answers, s') ∧
    ((summary answers).succeeded = false ↔ ∃ job f, (job, Except.error f) ∈ answers)
  /-- What is only checked changes nothing. -/
  checks : ∀ tree : σ → FileTree, Disk.Holds tree → ∀ (settings : Settings) (job : Job) (s : σ),
    job.mode = .check → tree (job.running settings s).2 = tree s

/-- The arguments for a document alone. -/
def Job.arguments (job : Job) : List String := [job.mode.switch, job.source.text]

/-- What is shown of jobs that were each run alone. -/
def summaryAlone (settings : Settings) (t : FileTree) (js : List Job) : Outcome :=
  summary (js.map fun job => (job, (job.running settings t).1))

/-- A run in which each document comes to what it comes to alone. -/
structure OnTheirOwn (settings : Settings) (arguments : List String) (t : FileTree) : Prop where
  /-- What each comes to alone. -/
  alone : ∀ job ∈ jobs arguments, run (m := StateM FileTree) job.arguments t =
    (summaryAlone settings t [job], job.alone settings t)
  /-- All of them come to the same in one run. -/
  answers : (run (m := StateM FileTree) arguments t).1 = summaryAlone settings t (jobs arguments)
  /-- What each changes alone is what is changed. -/
  merged : Merged settings t (jobs arguments) (run (m := StateM FileTree) arguments t).2
  /-- The outputs of each are those it has alone. -/
  outputs : ∀ job ∈ jobs arguments, ∀ p ∈ job.outputs settings,
    FileTree.entry? (run (m := StateM FileTree) arguments t).2 (t.place p) =
      FileTree.entry? (job.alone settings t) (t.place p)
  /-- And their order does not matter. -/
  order : ∀ arguments', wantsHelp arguments' = false → (jobs arguments').Perm (jobs arguments) →
    (run (m := StateM FileTree) arguments' t).1 = summaryAlone settings t (jobs arguments') ∧
      ∀ l, FileTree.entry? (run (m := StateM FileTree) arguments' t).2 l =
        FileTree.entry? (run (m := StateM FileTree) arguments t).2 l

theorem handled {σ : Type} [Disk (StateM σ)] {arguments : List String}
    (hhelp : wantsHelp arguments = false) (s : σ) : Handled arguments s := by
  obtain ⟨horder, hmap⟩ := inOrder_runJobs (settingsOf s).1 (jobs arguments) (settingsOf s).2
  refine ⟨map_jobsIn _ _, ?_, ⟨_, _, horder, hmap, run_eq hhelp s, succeeded_eq_false⟩, ?_⟩
  · rintro before argument after rfl hargument
    exact ⟨_, modeAfter_cases _ _, getElem?_jobs hargument⟩
  · exact fun tree h settings job s hmode => tree_running_check h hmode settings s

section Trees

variable {settings : Settings} {t : FileTree} {arguments : List String}

/-- The settings are read without a change. -/
theorem settingsOf_snd (t : FileTree) : (settingsOf t).2 = t := tree_settingsOf Disk.holds_fileTree t

/-- The arguments for a document that is handled are for it alone. -/
theorem jobs_arguments {job : Job} (hhelp : wantsHelp arguments = false)
    (hjob : job ∈ jobs arguments) :
    wantsHelp job.arguments = false ∧ jobs job.arguments = [job] := by
  obtain ⟨mode, ⟨text⟩⟩ := job
  have hfilter : text ∈ arguments.filter fun a => !isSwitch a := by
    rw [← map_jobsIn .compile]
    exact List.mem_map.2 ⟨_, hjob, rfl⟩
  obtain ⟨hmem, hproper⟩ := List.mem_filter.1 hfilter
  have htext : text ≠ "--help" := by
    rintro rfl
    rw [wantsHelp, List.contains_iff_mem.2 hmem, Bool.or_true] at hhelp
    cases hhelp
  rw [Bool.not_eq_true'] at hproper
  obtain ⟨hcompile, hcheck⟩ := Bool.or_eq_false_iff.1 hproper
  have hcompile : text ≠ "--compile" := of_decide_eq_false hcompile
  have hcheck : text ≠ "--check" := of_decide_eq_false hcheck
  have hhelp' := htext.symm
  cases mode with
  | compile =>
    simp [wantsHelp, Job.arguments, Mode.switch, jobs, jobsIn, hcompile, hcheck, hhelp']
  | check => simp [wantsHelp, Job.arguments, Mode.switch, jobs, jobsIn, hcompile, hcheck, hhelp']

/-- **Jobs that are apart are on their own.** -/
theorem onTheirOwn (hhelp : wantsHelp arguments = false) (hclosed : t.Closed)
    (hsound : ∀ job ∈ jobs arguments, Sound (settingsOf t).1 t job)
    (happart : (jobs arguments).Pairwise (Apart (settingsOf t).1 t)) :
    OnTheirOwn (settingsOf t).1 arguments t := by
  have hrun {arguments' : List String} (hhelp' : wantsHelp arguments' = false)
      (hperm : (jobs arguments').Perm (jobs arguments)) :
      (run (m := StateM FileTree) arguments' t).1 =
          summaryAlone (settingsOf t).1 t (jobs arguments') ∧
        Merged (settingsOf t).1 t (jobs arguments) (run (m := StateM FileTree) arguments' t).2 := by
    obtain ⟨hanswers, hmerged⟩ := runJobs_merged hclosed
      (fun job hjob => hsound job (hperm.subset hjob)) (by nofun)
      (hperm.symm.pairwise happart Apart.symm) (by nofun) (Merged.start (settingsOf t).1 t)
    rw [List.append_nil] at hmerged
    rw [run_eq hhelp', settingsOf_snd, hanswers]
    exact ⟨rfl, hmerged.of_perm ((List.reverse_perm _).trans hperm)⟩
  obtain ⟨hanswers, hmerged⟩ := hrun hhelp (.refl _)
  refine ⟨?_, hanswers, hmerged, ?_, ?_⟩
  · intro job hjob
    obtain ⟨hhelp', hjobs⟩ := jobs_arguments hhelp hjob
    rw [run_eq hhelp', settingsOf_snd, hjobs]
    rfl
  · intro job hjob p hp
    rcases hmerged.changed (t.place p) with hsame | ⟨i, hi, hne, hsame⟩
    · by_cases hne : FileTree.entry? (job.alone (settingsOf t).1 t) (t.place p) =
          t.entry? (t.place p)
      · exact hsame.trans hne.symm
      · exact hmerged.kept job hjob _ hne
    · by_cases heq : i = job
      · rw [← heq]
        exact hsame
      · -- another job leaves it as it is
        have hij := happart.forall hi hjob heq
        exact absurd (hij.1.entry?_alone hclosed (hsound i hi) (mem_paths hp)) hne
  · intro arguments' hhelp' hperm
    obtain ⟨hanswers', hmerged'⟩ := hrun hhelp' hperm
    exact ⟨hanswers', hmerged.unique hmerged'⟩

end Trees

/-- **Documents are handled on their own.** Each argument that is not a switch is handled once,
in order, in the mode of the nearest switch before it, and the run fails when one of them does.
If no output of one document is at, above or below a path of another, and the paths of each are
sound, then each comes to what it comes to alone and leaves the same behind, in whatever order
they are given. -/
theorem run_independent (arguments : List String) (hhelp : wantsHelp arguments = false) :
    (∀ (σ : Type) [Disk (StateM σ)] (s : σ), Handled arguments s) ∧
      ∀ t : FileTree, t.Closed → (∀ job ∈ jobs arguments, Sound (settingsOf t).1 t job) →
        (jobs arguments).Pairwise (Apart (settingsOf t).1 t) →
        OnTheirOwn (settingsOf t).1 arguments t :=
  ⟨fun _ _ => handled hhelp, fun _ => onTheirOwn hhelp⟩

/-- Two maps without anything and a file, and settings that have artifacts put into a folder. -/
def twoMaps (folder : String) : FileTree where
  entries := [(["a.json"], .file [0x7B, 0x7D]), (["b.json"], .file [0x7B, 0x7D]), (["f"], .file []),
    (["mapc.json"], .file (Utf8.encode ("\x7b\"output_dir\":\"" ++ folder ++ "\"\x7d")))]
  here := []

theorem closed_twoMaps (folder : String) : (twoMaps folder).Closed :=
  FileTree.closed_of_entries rfl (by
    intro e he
    simp only [twoMaps, List.mem_cons, List.not_mem_nil, or_false] at he
    rcases he with rfl | rfl | rfl | rfl <;> rfl)

/-- Two documents whose artifacts are put into the same folder, which is missing, are on their
own; both are compiled. -/
theorem run_independent_twoMaps :
    OnTheirOwn (settingsOf (twoMaps "x")).1 ["a.json", "b.json"] (twoMaps "x") ∧
      (run (m := StateM FileTree) ["a.json", "b.json"] (twoMaps "x")).1.succeeded = true :=
  ⟨(run_independent ["a.json", "b.json"] (by decide)).2 (twoMaps "x") (closed_twoMaps "x")
    (by decide +kernel) (by decide +kernel), by decide +kernel⟩

/-! ## Documents that interfere -/

/-- Documents that are apart, of which one comes to something else than alone. -/
def Interferes (arguments : List String) (t : FileTree) : Prop :=
  wantsHelp arguments = false ∧ t.Closed ∧ (jobs arguments).Pairwise (Apart (settingsOf t).1 t) ∧
    (run (m := StateM FileTree) arguments t).1.complaints ≠
      (jobs arguments).flatMap fun job =>
        (run (m := StateM FileTree) job.arguments t).1.complaints

section Interferences

variable {t : FileTree} {arguments : List String} {i j : Job} {text : String}
  {fault fault' : DiskFault} {f f' : CompileFailure}

/-- A document that cannot be read comes to that, and nothing is changed. -/
theorem running_of_read_error (settings : Settings) (job : Job)
    (h : t.read job.source = .error fault) :
    job.running settings t = (.error (.disk job.source fault), t) := by
  have hread : Compile.reading job.source t = (.error fault, t) := by
    have hfile : Disk.read (m := StateM FileTree) job.source t = (.error fault, t) :=
      congrArg (·, t) h
    rw [Compile.reading, Disk.readText, Disk.run_bind, hfile]
    rfl
  have hload : Compile.loading job.source t = (.error (.disk job.source fault), t) := by
    rcases Compile.loading_eq job.source t with ⟨fault', s', hread', hload⟩ | ⟨text, s', hread', -⟩
    · rw [hread] at hread'
      cases hread'
      exact hload
    · rw [hread] at hread'
      cases hread'
  unfold Job.running Job.run
  cases job.mode with
  | check => exact Compile.run_bind_of_error (Compile.run_bind_of_error hload)
  | compile => exact Compile.run_bind_of_error (Compile.run_bind_of_error hload)

/-- What is said tells the faults of the disk apart. -/
theorem complaint_disk_ne (job : Job) (p : Path) (h : fault.message ≠ fault'.message) :
    complaint job (.disk p fault) ≠ complaint job (.disk p fault') := by
  intro heq
  rw [complaint, complaint, String.append_right_inj, CompileFailure.text,
    CompileFailure.text] at heq
  exact h ((String.append_right_inj _).1 ((String.append_right_inj _).1 heq))

/-- Two documents interfere if the second fails in another way after the first. -/
theorem interferes_of_later (hhelp : wantsHelp arguments = false) (hclosed : t.Closed)
    (hjobs : jobs arguments = [i, j]) (happart : Apart (settingsOf t).1 t i j)
    (hi : (i.running (settingsOf t).1 t).1 = .ok text)
    (halone : (j.running (settingsOf t).1 t).1 = .error f)
    (hlater : (j.running (settingsOf t).1 (i.alone (settingsOf t).1 t)).1 = .error f')
    (hne : complaint j f' ≠ complaint j f) : Interferes arguments t := by
  refine ⟨hhelp, hclosed, by rw [hjobs]; exact List.pairwise_pair.2 happart, ?_⟩
  have hmem : i ∈ jobs arguments ∧ j ∈ jobs arguments := by
    rw [hjobs]
    simp
  obtain ⟨hhelp', hjobs'⟩ := jobs_arguments hhelp hmem.1
  obtain ⟨hhelp'', hjobs''⟩ := jobs_arguments hhelp hmem.2
  have hrun : (run (m := StateM FileTree) arguments t).1.complaints = [complaint j f'] := by
    rw [run_eq hhelp, settingsOf_snd, hjobs, runJobs_cons, runJobs_cons, hi]
    rw [Job.alone] at hlater
    rw [hlater]
    rfl
  have hfirst : (run (m := StateM FileTree) i.arguments t).1.complaints = [] := by
    rw [run_eq hhelp', settingsOf_snd, hjobs', runJobs_cons, hi]
    rfl
  have hsecond : (run (m := StateM FileTree) j.arguments t).1.complaints = [complaint j f] := by
    rw [run_eq hhelp'', settingsOf_snd, hjobs'', runJobs_cons, halone]
    rfl
  rw [hrun, hjobs, List.flatMap_cons, List.flatMap_cons, hfirst, hsecond]
  simpa using hne

section Overlong

/-! A name that is too long, in a folder `x`. -/

variable {name : String} (hproper : '/' ∉ name.toList ∧ '\x00' ∉ name.toList)
  (hlong : FileTree.nameLimit < name.utf8ByteSize)
  (hshort : name.utf8ByteSize + 2 ≤ FileTree.pathLimit)

theorem toList_overlong : ("x/" ++ name).toList = ['x'] ++ '/' :: name.toList :=
  String.toList_append ..

theorem origin_overlong : t.origin ⟨"x/" ++ name⟩ = t.here := by
  rw [FileTree.origin, toList_overlong]
  exact if_neg fun h => absurd (Option.some.inj h) (by decide)

include hproper hlong

theorem namesOf_overlong : namesOf ⟨"x/" ++ name⟩ = ["x", name] := by
  have hne : name.toList ≠ [] := by
    intro hempty
    rw [String.toList_eq_nil_iff.1 hempty] at hlong
    exact absurd hlong (by decide)
  have hx : FileTree.namesIn ['x'] = ["x"] := by decide
  show FileTree.namesIn ("x/" ++ name).toList = _
  rw [toList_overlong, FileTree.namesIn_append_slash, hx,
    FileTree.namesIn_of_not_mem hproper.1 hne, String.ofList_toList]
  rfl

theorem place_overlong (hhere : t.here = []) : t.place ⟨"x/" ++ name⟩ = ["x", name] := by
  have hname : name ≠ "." ∧ name ≠ ".." := by
    refine ⟨?_, ?_⟩ <;>
    · rintro rfl
      exact absurd hlong (by decide)
  rw [FileTree.place, origin_overlong, hhere, namesOf_overlong hproper hlong, List.foldl_cons,
    List.foldl_cons, List.foldl_nil, FileTree.step, FileTree.step, if_neg hname.1, if_neg hname.2]
  rfl

include hshort

/-- The name is looked at only where the folder is there. -/
theorem read_overlong (hhere : t.here = []) :
    (t.entry? ["x"] = none → t.read ⟨"x/" ++ name⟩ = .error .missing) ∧
      (t.entry? ["x"] = some .folder → t.read ⟨"x/" ++ name⟩ = .error .nameTooLong) := by
  have hlegible : FileTree.Legible ⟨"x/" ++ name⟩ := by
    constructor
    · have hx : '\x00' ∉ ['x'] := by decide
      have hslash : '\x00' ≠ '/' := by decide
      rw [toList_overlong, List.mem_append, not_or]
      exact ⟨hx, fun h => (List.mem_cons.1 h).elim hslash hproper.2⟩
    · have hx : "x/".utf8ByteSize = 2 := by decide
      rw [String.utf8ByteSize_append, hx]
      omega
  have hempty : ("x/" ++ name).isEmpty = false := by
    rw [← Bool.not_eq_true, String.isEmpty_iff, ← String.toList_eq_nil_iff, toList_overlong]
    nofun
  have hx : ¬ FileTree.nameLimit < "x".utf8ByteSize := by decide
  have hroot : t.entry? [] = some .folder := rfl
  have hstep : FileTree.step [] "x" = ["x"] := rfl
  refine ⟨fun hnone => ?_, fun hfolder => ?_⟩
  · refine FileTree.read_of_follow_error hlegible hempty ?_
    rw [origin_overlong, hhere, namesOf_overlong hproper hlong]
    simp only [FileTree.follow, hroot, if_neg hx, hstep, hnone]
  · refine FileTree.read_of_follow_error hlegible hempty ?_
    rw [origin_overlong, hhere, namesOf_overlong hproper hlong]
    simp only [FileTree.follow, hroot, if_neg hx, hstep, hfolder, if_pos hlong]

/-- **A document with such a name** fails in another way once the folder is made for the artifact
of another. -/
theorem interferes_overlong {argument : String} (hhelp : wantsHelp [argument] = false)
    (hdocument : isSwitch argument = false)
    (hclosed : t.Closed) (hhere : t.here = []) (hnone : t.entry? ["x"] = none)
    (hanswer : ((⟨.compile, ⟨argument⟩⟩ : Job).running (settingsOf t).1 t).1 = .ok text)
    (hstays : FileTree.here ((⟨.compile, ⟨argument⟩⟩ : Job).alone (settingsOf t).1 t) = [])
    (hfolder : FileTree.entry? ((⟨.compile, ⟨argument⟩⟩ : Job).alone (settingsOf t).1 t) ["x"] =
      some .folder)
    (happart : ∀ p ∈ (⟨.compile, ⟨argument⟩⟩ : Job).outputs (settingsOf t).1,
      ¬ t.place p <+: ["x", name] ∧ ¬ ["x", name] <+: t.place p) :
    Interferes [argument, "--check", "x/" ++ name] t := by
  have hne {s : String} (hs : s.toList.head? ≠ some 'x') : "x/" ++ name ≠ s := by
    rintro rfl
    rw [toList_overlong] at hs
    exact hs rfl
  have hplace := place_overlong hproper hlong hhere
  have hlater := (read_overlong hproper hlong hshort hstays).2 hfolder
  have halone := (read_overlong hproper hlong hshort hhere).1 hnone
  have hhelp' : "x/" ++ name ≠ "--help" := hne (by decide)
  have hcompile : "x/" ++ name ≠ "--compile" := hne (by decide)
  have hcheck : "x/" ++ name ≠ "--check" := hne (by decide)
  generalize "x/" ++ name = source at *
  obtain ⟨hcompile', hcheck'⟩ := Bool.or_eq_false_iff.1 hdocument
  have hcompile' : argument ≠ "--compile" := of_decide_eq_false hcompile'
  have hcheck' : argument ≠ "--check" := of_decide_eq_false hcheck'
  have hjobs : jobs [argument, "--check", source] =
      [⟨.compile, ⟨argument⟩⟩, ⟨.check, ⟨source⟩⟩] := by
    simp [jobs, jobsIn, hcompile, hcheck, hcompile', hcheck']
  have halone := congrArg Prod.fst
    (running_of_read_error (settingsOf t).1 ⟨.check, ⟨source⟩⟩ halone)
  have hlater := congrArg Prod.fst
    (running_of_read_error (settingsOf t).1 ⟨.check, ⟨source⟩⟩ hlater)
  have hmessage : DiskFault.nameTooLong.message ≠ DiskFault.missing.message := by decide
  refine interferes_of_later ?_ hclosed hjobs ⟨?_, ?_⟩ hanswer halone hlater
    (complaint_disk_ne _ _ hmessage)
  · simpa [wantsHelp, hhelp'.symm] using hhelp
  · intro p hp q hq
    rw [List.mem_singleton.1 hq, hplace]
    exact happart p hp
  · exact fun p hp => absurd hp List.not_mem_nil

end Overlong

end Interferences

/-- **It is not enough that documents are apart.** Out of a folder that is made for the artifact
of one, `..` leads to the source of another, which is not found alone. In the path of an output
it leads on to a file, which is met sooner once the folder is there. So is a name in that folder
that is too long. -/
theorem interferes_twoMaps :
    Interferes ["a.json", "x/../b.json"] (twoMaps "x") ∧
      Interferes ["a.json", "b.json"] (twoMaps "x/../f/y") ∧
      Interferes ["a.json", "--check", "x/" ++ String.ofList (List.replicate 256 'n')]
        (twoMaps "x") := by
  have hlong : Interferes ["a.json", "--check", "x/" ++ String.ofList (List.replicate 256 'n')]
      (twoMaps "x") := by
    have hproper : '/' ∉ (String.ofList (List.replicate 256 'n')).toList ∧
        '\x00' ∉ (String.ofList (List.replicate 256 'n')).toList := by
      rw [String.toList_ofList]
      decide +kernel
    have hanswer : ((⟨.compile, ⟨"a.json"⟩⟩ : Job).running (settingsOf (twoMaps "x")).1
        (twoMaps "x")).1.toOption = some "" := by decide +kernel
    refine interferes_overlong hproper ?_ ?_ ?_ ?_ (closed_twoMaps "x") rfl ?_
      (toOption_eq_some.1 hanswer) ?_ ?_ ?_ <;> decide +kernel
  refine ⟨⟨?_, closed_twoMaps "x", ?_, ?_⟩, ⟨?_, closed_twoMaps "x/../f/y", ?_, ?_⟩, hlong⟩ <;>
    decide +kernel

end MapDocument.CommandLine
