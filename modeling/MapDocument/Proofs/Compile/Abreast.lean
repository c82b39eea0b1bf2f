import MapDocument.Proofs.Compile.Effects
import MapDocument.Proofs.Disk.Abreast
/-!
# Compilation — the same document on two disks

A document is handled alike on two disks that have the same along the path of
its source, and along those of what is written but for folders that the second
has already. Then it comes to the same, and what is changed is changed alike.
-/

namespace MapDocument.Compile

open FileTree (Abreast Alike Grown LiesIn namesOf)

variable {α β : Type} {t t' u u' : FileTree} {p q : Path} {settings : Settings} {source : Path}

/-! ## What is left as it is -/

section Disks

variable {σ : Type} [Disk (StateM σ)] {tree : σ → FileTree}

/-- Loading a map changes nothing. -/
theorem tree_loading (h : Disk.Holds tree) (source : Path) (s : σ) :
    tree (loading source s).2 = tree s := by
  have hsame := (reading_eq h source s).1
  rcases loading_eq source s with ⟨fault, s', hread, hload⟩ | ⟨text, s', hread, hload⟩
  all_goals
    rw [hread] at hsame
    rw [hload]
    exact hsame

/-- Nor does checking one. -/
theorem tree_checkFile (h : Disk.Holds tree) (settings : Settings) (source : Path) (s : σ) :
    tree ((checkFile settings source : ExceptT CompileFailure (StateM σ) Journal).run s).2 =
      tree s := by
  have hsame := tree_loading h source s
  unfold checkFile
  cases hload : loading source s with
  | mk result s' =>
    rw [hload] at hsame
    cases result with
    | error f =>
      rw [run_bind_of_error hload]
      exact hsame
    | ok m =>
      rw [run_bind_of_ok hload, run_inMemory]
      exact hsame

/-- Compiling one changes what is its own. -/
theorem confined_compiling (h : Disk.Holds tree) (settings : Settings) (source : Path) (s : σ) :
    Confined settings source ((Disk.parents (artifactPath settings source)).map (tree s).place)
      (tree s) (tree (compiling settings source s).2) := by
  have hsame := tree_loading h source s
  cases hload : loading source s with
  | mk result s' =>
    rw [hload] at hsame
    cases result with
    | error f =>
      rw [compiling_of_loading_error hload, hsame]
      exact .refl _ _
    | ok m =>
      cases hartifact : m.toArtifact settings with
      | error f =>
        rw [compiling_of_toArtifact_error hload hartifact, hsame]
        exact .refl _ _
      | ok artifact =>
        have hdoes := (does_putting h settings source m artifact s').confined
        rwa [← compiling_of_toArtifact hload hartifact, hsame] at hdoes

end Disks

/-! ## Actions on two trees -/

/-- An action comes to the same on two trees, which it changes alike. -/
structure RunsAlike (x : StateM FileTree α) (t u : FileTree) : Prop where
  answer : (x u).1 = (x t).1
  abreast : Abreast t (x t).2 u (x u).2

namespace RunsAlike

/-- What leaves a tree as it is does so with both. -/
theorem of_eq {x : StateM FileTree α} {a : α} (ht : x t = (a, t)) (hu : x u = (a, u)) :
    RunsAlike x t u := by
  refine ⟨?_, ?_⟩
  · rw [ht, hu]
  · rw [ht, hu]
    exact .refl t u

theorem inMemory (result : Except CompileFailure α) (t u : FileTree) :
    RunsAlike (Compile.inMemory result : ExceptT CompileFailure (StateM FileTree) α).run t u :=
  of_eq (run_inMemory result) (run_inMemory result)

/-- Faults are told with the same path. -/
theorem atPath {x : StateM FileTree (Except DiskFault α)} (h : RunsAlike x t u) (path : Path) :
    RunsAlike (Compile.atPath path x).run t u := by
  refine ⟨?_, ?_⟩
  · rw [run_atPath, run_atPath, h.answer]
  · rw [run_atPath, run_atPath]
    exact h.abreast

theorem lift {x : StateM FileTree α} (h : RunsAlike x t u) :
    RunsAlike (liftM x : ExceptT CompileFailure (StateM FileTree) α).run t u := by
  refine ⟨?_, ?_⟩
  · rw [run_lift, run_lift, h.answer]
  · rw [run_lift, run_lift]
    exact h.abreast

/-- **A sequence of such actions is one**, if the second is on what the first leaves behind. -/
theorem bind {x : ExceptT CompileFailure (StateM FileTree) α}
    {g : α → ExceptT CompileFailure (StateM FileTree) β} (hx : RunsAlike x.run t u)
    (hg : ∀ a, (x.run t).1 = .ok a → RunsAlike (g a).run (x.run t).2 (x.run u).2) :
    RunsAlike (x >>= g).run t u := by
  obtain ⟨hanswer, habreast⟩ := hx
  cases ht : x.run t with
  | mk result t' =>
    cases hu : x.run u with
    | mk result' u' =>
      rw [ht, hu] at hanswer habreast hg
      obtain rfl : result' = result := hanswer
      cases result' with
      | error f =>
        refine ⟨?_, ?_⟩
        · rw [run_bind_of_error ht, run_bind_of_error hu]
        · rw [run_bind_of_error ht, run_bind_of_error hu]
          exact habreast
      | ok a =>
        obtain ⟨hlast, hlater⟩ := hg a rfl
        refine ⟨?_, ?_⟩
        · rw [run_bind_of_ok ht, run_bind_of_ok hu, hlast]
        · rw [run_bind_of_ok ht, run_bind_of_ok hu]
          exact habreast.trans hlater

end RunsAlike

/-! ## Operations on two trees -/

/-- A file that holds the same is loaded alike. -/
theorem readMap_alike (h : u.read source = t.read source) :
    RunsAlike (readMap source : ExceptT CompileFailure (StateM FileTree) MapChunk).run t u := by
  have hreads : ∃ answer : Except DiskFault String, ∀ v : FileTree, v.read source = t.read source →
      Disk.readText (m := StateM FileTree) source v = (answer, v) := by
    have hread (v : FileTree) : Disk.read (m := StateM FileTree) source v = (v.read source, v) := rfl
    simp only [Disk.readText, Disk.run_bind, hread]
    cases t.read source with
    | error fault => exact ⟨.error fault, fun v hv => by rw [hv]; rfl⟩
    | ok bytes =>
      cases htext : Utf8.decode? bytes with
      | some text => exact ⟨.ok text, fun v hv => by simp only [hv, htext]; rfl⟩
      | none => exact ⟨.error .notText, fun v hv => by simp only [hv, htext]; rfl⟩
  obtain ⟨answer, hreads⟩ := hreads
  exact .bind (.atPath (.of_eq (hreads t rfl) (hreads u h)) source) fun text _ => .inMemory _ _ _

theorem run_write (p : Path) (content : Bytes) (t : FileTree) :
    (Disk.write p content : StateM FileTree _) t = FileTree.attempt (·.write p content) t := rfl

/-- A file is written alike where the trees are alike. -/
theorem write_alike (h : Alike t u p) (content : Bytes) :
    RunsAlike (Disk.write p content : StateM FileTree _) t u := by
  have htarget := h.target
  cases ht : t.target p with
  | error fault =>
    refine .of_eq (a := .error fault) ?_ ?_
    · rw [run_write, Disk.attempt_eq, FileTree.write_eq, ht]
      rfl
    · rw [run_write, Disk.attempt_eq, FileTree.write_eq, htarget, ht]
      rfl
  | ok l =>
    have hwrite (v : FileTree) (hv : v.target p = .ok l) :
        v.write p content = .ok (v.insert l (.file content)) := by
      rw [FileTree.write_eq, hv]
      rfl
    have hu := hwrite u (htarget.trans ht)
    have ht := hwrite t ht
    have hroot := FileTree.place_ne_nil_of_write ht
    obtain ⟨hinsert, -, -, -, hfolder⟩ := FileTree.write_eq_ok ht
    obtain ⟨hinsert', -, -, -, hfolder'⟩ := FileTree.write_eq_ok hu
    refine ⟨?_, ?_⟩
    · rw [run_write, run_write, Disk.attempt_eq, Disk.attempt_eq, ht, hu]
    · rw [run_write, run_write, Disk.attempt_eq, Disk.attempt_eq, ht, hu]
      simp only
      rw [hinsert, hinsert']
      rw [h.place] at hfolder' ⊢
      exact .insert hroot hfolder hfolder' _

/-- A file that was just written in both is taken away alike. -/
theorem remove_alike {content : Bytes} (ht : t.write p content = .ok t')
    (hu : u.write p content = .ok u') (hhere : u.here = t.here) :
    RunsAlike (Disk.remove p : StateM FileTree _) t' u' := by
  have hrun (v : FileTree) : (Disk.remove p : StateM FileTree _) v =
      FileTree.attempt (·.remove p) v := rfl
  obtain ⟨-, -, hplace, hentry⟩ := FileTree.reaches_of_write ht
  obtain ⟨-, -, hplace', hentry'⟩ := FileTree.reaches_of_write hu
  have hsame : u'.place p = t'.place p := by
    rw [hplace, hplace', FileTree.place_congr hhere]
  have hremove := FileTree.remove_of_write ht
  have hremove' := FileTree.remove_of_write hu
  refine ⟨?_, ?_⟩
  · rw [hrun, hrun, Disk.attempt_eq, Disk.attempt_eq, hremove, hremove']
  · rw [hrun, hrun, Disk.attempt_eq, Disk.attempt_eq, hremove, hremove']
    simp only
    rw [hsame] at hentry' ⊢
    exact .erase (by rw [hentry]; nofun) (by rw [hentry']; nofun)

/-! ## Folders -/

/-- What leads through folders that are there in both trees is alike, if its own place is. -/
theorem alike_of_follow (hin : LiesIn p q) (hhere : u.here = t.here)
    (ht : t.follow (t.origin q) (namesOf q ++ ["."]) = .ok (t.place q))
    (hu : u.follow (t.origin q) (namesOf q ++ ["."]) = .ok (t.place q))
    (hplace : u.entry? (t.place p) = t.entry? (t.place p)) : Alike t u p := by
  refine ⟨hhere, fun l hl => ?_⟩
  rcases hin.mem_trail.1 hl with hl | rfl
  · rw [FileTree.folder_of_follow hu hl, FileTree.folder_of_follow ht hl]
  · exact hplace

/-- **The folders above a file are made alike**, and then the trees are alike along the path
of every file beside it. -/
theorem makeParents_alike (hclosed : t.Closed) (hhere : u.here = t.here)
    (hfirm : t.Firm (t.origin p) (namesOf p)) (hgrown : ∀ l ∈ t.trail p, Grown t u l) :
    RunsAlike (Disk.makeParents p : StateM FileTree _) t u ∧
      (((Disk.makeParents p : StateM FileTree _) t).1 = .ok () → ∀ r, FileTree.Beside p r →
        u.entry? (t.place r) = t.entry? (t.place r) →
        Alike ((Disk.makeParents p : StateM FileTree _) t).2
          ((Disk.makeParents p : StateM FileTree _) u).2 r) := by
  rcases FileTree.makeParents_cases hclosed hhere hfirm hgrown with
    ⟨answer, hnone, ht, hu⟩ | ⟨q, hparent, ht, hu⟩
  · refine ⟨.of_eq ht hu, fun hok r hbeside hplace => ?_⟩
    rw [ht] at hok ⊢
    rw [hu]
    have hnone := hnone hok
    obtain rfl := hbeside.2 hnone
    -- the path leads nowhere
    have hidle := FileTree.idle_of_parent hnone
    refine ⟨hhere, fun l hl => ?_⟩
    rw [(FileTree.mem_trailFrom_idle hidle).1 hl]
    rwa [FileTree.place, FileTree.foldl_idle hidle] at hplace
  · have hin := FileTree.liesIn_of_parent hparent
    have hgrown' : ∀ l ∈ t.trail q, Grown t u l :=
      fun l hl => hgrown l (hin.mem_trail.2 (.inl hl))
    have hfolder := hclosed.origin q
    obtain ⟨hanswer, habreast⟩ := FileTree.lay_abreast
      (((hgrown' _ FileTree.mem_trailFrom_first).folder hfolder).trans hfolder.symm) hgrown'
    refine ⟨⟨?_, ?_⟩, fun hok r hbeside hplace => ?_⟩
    · rw [ht, hu, hanswer]
    · rw [ht, hu]
      exact habreast
    · rw [ht] at hok ⊢
      rw [hu]
      have hlaid := FileTree.follow_of_lay hok
      have hlaid' := FileTree.follow_of_lay (hanswer.trans hok)
      have hin' := hbeside.1 q hparent
      generalize t.lay (t.origin q) (namesOf q) = made at habreast hlaid ⊢
      generalize u.lay (t.origin q) (namesOf q) = made' at habreast hlaid' ⊢
      have horigin : made.2.origin q = t.origin q := by
        rw [FileTree.origin, FileTree.origin, habreast.here.1]
      have hhere' := habreast.here.2.trans (hhere.trans habreast.here.1.symm)
      refine alike_of_follow hin' hhere' ?_ ?_ ?_
      · rw [horigin, FileTree.place_congr habreast.here.1]
        exact hlaid
      · rw [horigin, FileTree.place_congr habreast.here.1]
        exact hlaid'
      · rw [FileTree.place_congr habreast.here.1]
        exact habreast.agree hplace

/-! ## Documents -/

/-- Trees that are alike along a path are so after they were changed alike. -/
theorem alike_of_abreast (h : Alike t u p) (habreast : Abreast t t' u u') : Alike t' u' p := by
  have htrail : t'.trail p = t.trail p := by
    rw [FileTree.trail, FileTree.trail, FileTree.origin, FileTree.origin, habreast.here.1]
  refine ⟨habreast.here.2.trans (h.here.trans habreast.here.1.symm), fun l hl => ?_⟩
  rw [htrail] at hl
  exact habreast.agree (h.entries l hl)

/-- The paths that compiling a file writes to. -/
def written (settings : Settings) (source : Path) : List Path :=
  if settings.keepsText then [artifactPath settings source, textPath settings source]
  else [artifactPath settings source]

theorem artifactPath_mem_written (settings : Settings) (source : Path) :
    artifactPath settings source ∈ written settings source := by
  unfold written
  split <;> exact List.mem_cons_self

theorem textPath_mem_written (h : settings.keepsText = true) (source : Path) :
    textPath settings source ∈ written settings source := by
  rw [written, if_pos h]
  exact List.mem_cons_of_mem _ List.mem_cons_self

/-- They are that of the artifact and, if it is kept, that of the text. -/
theorem eq_of_mem_written (h : p ∈ written settings source) :
    p = artifactPath settings source ∨ settings.keepsText = true ∧ p = textPath settings source := by
  unfold written at h
  split at h
  · rename_i hkeeps
    rcases List.mem_cons.1 h with hp | hp
    · exact .inl hp
    · exact .inr ⟨hkeeps, List.mem_singleton.1 hp⟩
  · exact .inl (List.mem_singleton.1 h)

/-- What is written stands beside the artifact. -/
theorem beside_of_mem_written (h : p ∈ written settings source) :
    FileTree.Beside (artifactPath settings source) p := by
  rcases eq_of_mem_written h with rfl | ⟨-, rfl⟩
  · exact .refl _
  · exact FileTree.beside_withExtension (by decide) (by decide) _

/-- A file that is not written leaves the tree as it was. -/
theorem write_of_error {content : Bytes} {fault : DiskFault}
    (h : ((Disk.write p content : StateM FileTree _) t).1 = .error fault) :
    ((Disk.write p content : StateM FileTree _) t).2 = t := by
  rw [run_write] at h ⊢
  rcases Disk.attempted_attempt (·.write p content) t with ⟨hok, -⟩ | ⟨-, hsame⟩
  · cases hok.symm.trans h
  · exact hsame

/-- One that is written is there as the tree has it. -/
theorem write_of_ok {content : Bytes}
    (h : ((Disk.write p content : StateM FileTree _) t).1 = .ok ()) :
    t.write p content = .ok ((Disk.write p content : StateM FileTree _) t).2 := by
  rw [run_write] at h ⊢
  rcases Disk.attempted_attempt (·.write p content) t with ⟨-, hwrite⟩ | ⟨⟨fault, hfault⟩, -⟩
  · exact hwrite
  · cases hfault.symm.trans h

/-- The artifact is written alike, or the text taken away alike. -/
theorem storing_alike {artifact : Bytes} (hout : Alike t u (artifactPath settings source))
    (hremove : settings.keepsText = true →
      RunsAlike (Disk.remove (textPath settings source) : StateM FileTree _) t u) :
    RunsAlike (storing settings source artifact :
      ExceptT CompileFailure (StateM FileTree) Path).run t u := by
  have hwrite := write_alike hout artifact
  unfold storing
  refine .bind (.lift hwrite) fun answer hanswer => ?_
  rw [run_lift] at hanswer ⊢
  rw [run_lift]
  cases answer with
  | ok done => exact .of_eq rfl rfl
  | error fault =>
    have hfault := Except.ok.inj hanswer
    rw [write_of_error hfault, write_of_error (hwrite.answer.trans hfault)]
    cases hkeeps : settings.keepsText with
    | false => exact .of_eq rfl rfl
    | true => exact .bind (.lift (hremove hkeeps)) fun _ _ => .of_eq rfl rfl

/-- **An artifact is put on both disks alike.** -/
theorem putting_alike (m : MapChunk) (artifact : Bytes) (hclosed : t.Closed)
    (hhere : u.here = t.here)
    (hfirm : t.Firm (t.origin (artifactPath settings source))
      (namesOf (artifactPath settings source)))
    (hgrown : ∀ l ∈ t.trail (artifactPath settings source), Grown t u l)
    (hplaces : ∀ p ∈ written settings source, u.entry? (t.place p) = t.entry? (t.place p)) :
    RunsAlike (putting settings source m artifact :
      ExceptT CompileFailure (StateM FileTree) Path).run t u := by
  obtain ⟨hmade, hbeside⟩ := makeParents_alike hclosed hhere hfirm hgrown
  unfold putting
  refine .bind (.atPath hmade _) fun done hok => ?_
  simp only [run_atPath, mapError_eq_ok] at hok ⊢
  have halike {p : Path} (hp : p ∈ written settings source) :=
    hbeside hok p (beside_of_mem_written hp) (hplaces p hp)
  have hout := halike (artifactPath_mem_written settings source)
  cases hkeeps : settings.keepsText with
  | false => exact storing_alike hout fun htrue => by simp [hkeeps] at htrue
  | true =>
    have htext := halike (textPath_mem_written hkeeps source)
    have hwrite := write_alike htext (Utf8.encode m.toText)
    refine .bind (.atPath hwrite _) fun done hok => ?_
    simp only [run_atPath, mapError_eq_ok] at hok ⊢
    exact storing_alike (alike_of_abreast hout hwrite.abreast) fun _ =>
      remove_alike (write_of_ok hok) (write_of_ok (hwrite.answer.trans hok)) htext.here

/-- **A file is compiled alike on both disks.** -/
theorem compileFile_alike (hclosed : t.Closed) (hhere : u.here = t.here)
    (hsource : u.read source = t.read source)
    (hfirm : t.Firm (t.origin (artifactPath settings source))
      (namesOf (artifactPath settings source)))
    (hgrown : ∀ l ∈ t.trail (artifactPath settings source), Grown t u l)
    (hplaces : ∀ p ∈ written settings source, u.entry? (t.place p) = t.entry? (t.place p)) :
    RunsAlike (compileFile settings source :
      ExceptT CompileFailure (StateM FileTree) Path).run t u := by
  have hload (v : FileTree) :
      ((readMap source : ExceptT CompileFailure (StateM FileTree) MapChunk).run v).2 = v :=
    tree_loading Disk.holds_fileTree source v
  rw [compileFile_eq]
  refine .bind (readMap_alike hsource) fun m _ => ?_
  rw [hload, hload]
  refine .bind (.inMemory _ _ _) fun artifact _ => ?_
  rw [run_inMemory, run_inMemory]
  exact putting_alike m artifact hclosed hhere hfirm hgrown hplaces

/-- **And checked alike.** -/
theorem checkFile_alike (settings : Settings) (hsource : u.read source = t.read source) :
    RunsAlike (checkFile settings source :
      ExceptT CompileFailure (StateM FileTree) Journal).run t u :=
  .bind (readMap_alike hsource) fun _ _ => .inMemory _ _ _

end MapDocument.Compile
