import MapDocument.Proofs.Disk.Laying
/-!
# Disk — the same done to two trees

What is done on a tree comes to the same on another that differs from it in
places that do not matter: in places that it does not lead through, and in
folders that are there already where they would be made. The folders of a path
are such, if `..` leads out of no place but a folder that is there from the
beginning; for otherwise a folder that is made can turn a missing one into
something that is in the way.
-/

namespace MapDocument.FileTree

variable {t t' t'' u u' u'' : FileTree} {p q : Path} {l m : Location} {names others : List String}
  {name : String}

/-! ## Trees of a disk -/

/-- A tree as a disk has it: everything is in a folder, and paths start from one. -/
structure Closed (t : FileTree) : Prop where
  here : t.entry? t.here = some .folder
  above : ∀ l, t.entry? l ≠ none → t.entry? l.dropLast = some .folder

/-- It is enough to look at what there is. -/
theorem closed_of_entries (hhere : t.entry? t.here = some .folder)
    (habove : ∀ e ∈ t.entries, t.entry? e.1.dropLast = some .folder) : t.Closed := by
  refine ⟨hhere, fun l hl => ?_⟩
  rw [FileTree.entry?] at hl
  split at hl
  · rename_i hroot
    rw [hroot]
    rfl
  · obtain ⟨entry, hentry⟩ := Option.ne_none_iff_exists'.1 hl
    obtain ⟨before, after, hentries, -⟩ := List.lookup_eq_some_iff.1 hentry
    exact habove (l, entry) (by rw [hentries]; simp)

/-- Paths start from a folder. -/
theorem Closed.origin (h : t.Closed) (p : Path) : t.entry? (t.origin p) = some .folder := by
  rw [FileTree.origin]
  split
  · rfl
  · exact h.here

/-- Nothing is where a name leads from where there is nothing. -/
theorem Closed.step_none (h : t.Closed) (hl : t.entry? l = none) (hname : name ≠ "..") :
    t.entry? (step l name) = none := by
  rw [step, if_neg hname]
  split
  · exact hl
  · by_contra hthere
    have habove := h.above _ hthere
    rw [List.dropLast_concat, hl] at habove
    cases habove

/-- Names of which `..` leads out of no place but a folder that is there. -/
inductive Firm (t : FileTree) : Location → List String → Prop
  | nil (l : Location) : Firm t l []
  | cons {l : Location} {name : String} {rest : List String}
    (here : name = ".." → t.entry? l = some .folder) (later : Firm t (step l name) rest) :
    Firm t l (name :: rest)

theorem firm_cons :
    t.Firm l (name :: names) ↔
      (name = ".." → t.entry? l = some .folder) ∧ t.Firm (step l name) names := by
  refine ⟨fun h => ?_, fun h => .cons h.1 h.2⟩
  cases h with
  | cons here later => exact ⟨here, later⟩

instance Firm.decidable (t : FileTree) (l : Location) :
    (names : List String) → Decidable (t.Firm l names)
  | [] => .isTrue (.nil l)
  | name :: rest =>
    have := Firm.decidable t (step l name) rest
    decidable_of_iff _ firm_cons.symm

theorem firm_append :
    t.Firm l (names ++ others) ↔ t.Firm l names ∧ t.Firm (names.foldl step l) others := by
  induction names generalizing l with
  | nil => exact (and_iff_right (.nil l)).symm
  | cons name names ih =>
    rw [List.cons_append, firm_cons, ih, firm_cons, and_assoc, List.foldl_cons]

theorem firm_idle (h : Idle names) : t.Firm l names := by
  induction names generalizing l with
  | nil => exact .nil l
  | cons name names ih =>
    refine .cons (fun hdots => ?_) (ih fun name' hname => h name' (List.mem_cons_of_mem name hname))
    rw [h name List.mem_cons_self] at hdots
    exact absurd hdots (by decide)

section Firm

variable (hclosed : t.Closed) (hfirm : t.Firm l names)
include hclosed hfirm

/-- Behind a place where there is nothing such names lead through no other. -/
theorem Firm.trail_none (hl : t.entry? l = none) (hm : m ∈ trailFrom l names) :
    t.entry? m = none := by
  induction names generalizing l with
  | nil => rwa [List.mem_singleton.1 hm]
  | cons name names ih =>
    obtain ⟨hhere, hlater⟩ := firm_cons.1 hfirm
    rcases List.mem_cons.1 hm with rfl | hm
    · exact hl
    · have hname : name ≠ ".." := by
        intro hdots
        have hfolder := hhere hdots
        rw [hl] at hfolder
        cases hfolder
      exact ih hlater (hclosed.step_none hl hname) hm

/-- They lead through folders that are there, and places above the one that they lead to. -/
theorem Firm.trail_cases (hm : m ∈ trailFrom l names) :
    t.entry? m = some .folder ∨ m <+: names.foldl step l := by
  induction names generalizing l m with
  | nil => exact .inr (by rw [List.mem_singleton.1 hm]; exact List.prefix_rfl)
  | cons name names ih =>
    obtain ⟨hhere, hlater⟩ := firm_cons.1 hfirm
    rcases List.mem_cons.1 hm with rfl | hm
    · by_cases hdots : name = ".."
      · exact .inl (hhere hdots)
      · have hnext := ih hlater mem_trailFrom_first
        rw [List.foldl_cons]
        by_cases hdot : name = "."
        · rw [hdot, step_stay] at hnext ⊢
          exact hnext
        · rw [step, if_neg hdot, if_neg hdots] at hnext ⊢
          rcases hnext with hfolder | hbelow
          · have habove := hclosed.above (m ++ [name]) (by simp [hfolder])
            rw [List.dropLast_concat] at habove
            exact .inl habove
          · exact .inr ((List.prefix_append m [name]).trans hbelow)
    · exact ih hlater hm

end Firm

/-! ## Folders that are there already -/

/-- At a place there is the same in two trees, or nothing in the first and a folder in the
second. -/
def Grown (t u : FileTree) (l : Location) : Prop :=
  u.entry? l = t.entry? l ∨ t.entry? l = none ∧ u.entry? l = some .folder

/-- Folders that are in the first tree are in the second. -/
theorem Grown.folder (h : Grown t u l) (hl : t.entry? l = some .folder) :
    u.entry? l = some .folder := by
  rcases h with hsame | ⟨hnone, -⟩
  · exact hsame.trans hl
  · rw [hl] at hnone
    cases hnone

/-- The same is there once there is a folder in both. -/
theorem Grown.entry?_withFolder (h : Grown t u l) :
    entry? (u.withFolder l) l = entry? (t.withFolder l) l := by
  rw [FileTree.entry?_withFolder, FileTree.entry?_withFolder]
  rcases h with hsame | ⟨hnone, hfolder⟩
  · rw [hsame]
  · simp [hnone, hfolder]

/-- Elsewhere there is what was there. -/
theorem Grown.withFolder (h : Grown t u l) (hm : Grown t u m) :
    Grown (t.withFolder l) (u.withFolder l) m := by
  by_cases heq : m = l
  · subst heq
    exact .inl h.entry?_withFolder
  · have hsame (v : FileTree) : entry? (v.withFolder l) m = v.entry? m := by
      rw [FileTree.entry?_withFolder, if_neg fun h => heq h.1]
    rwa [Grown, hsame, hsame]

/-- Names of which none is too long lead to the same in a tree with more folders; or into
nothing, and in that tree at most to a place where there was nothing. -/
theorem Firm.follow_cases (hclosed : t.Closed) (hfirm : t.Firm l names)
    (hshort : ∀ name ∈ names, name.utf8ByteSize ≤ nameLimit)
    (hgrown : ∀ m ∈ trailFrom l names, Grown t u m) :
    u.follow l names = t.follow l names ∨
      t.follow l names = .error .missing ∧ t.entry? (names.foldl step l) = none ∧
        (u.follow l names = .error .missing ∨ u.follow l names = .ok (names.foldl step l)) := by
  induction names generalizing l with
  | nil => exact .inl rfl
  | cons name names ih =>
    obtain ⟨hhere, hlater⟩ := firm_cons.1 hfirm
    have hname : ¬ nameLimit < name.utf8ByteSize := by
      have hle := hshort name List.mem_cons_self
      omega
    have hrest := ih hlater (fun name' hname' => hshort name' (List.mem_cons_of_mem name hname'))
      fun m hm => hgrown m (List.mem_cons_of_mem l hm)
    rcases hgrown l List.mem_cons_self with hsame | ⟨hnone, hfolder⟩
    · rw [follow, follow, hsame]
      cases hl : t.entry? l with
      | none => exact .inl rfl
      | some entry =>
        cases entry with
        | file content => exact .inl rfl
        | folder =>
          simp only [if_neg hname]
          exact hrest
    · -- from here on there is nothing in the first tree
      have hmissing : t.follow l (name :: names) = .error .missing := by rw [follow, hnone]
      have hlast := hfirm.trail_none hclosed hnone mem_trailFrom_last
      have hgo : u.follow l (name :: names) = u.follow (step l name) names := by
        rw [follow, hfolder]
        exact if_neg hname
      refine .inr ⟨hmissing, hlast, ?_⟩
      rw [hgo, List.foldl_cons]
      rcases hrest with hsame | ⟨-, -, hcases⟩
      · have hnext : t.entry? (step l name) = none := hfirm.trail_none hclosed hnone
          (List.mem_cons_of_mem l mem_trailFrom_first)
        rw [hsame]
        cases names with
        | nil => exact .inr rfl
        | cons name' names => exact .inl (by rw [follow, hnext])
      · exact hcases

/-- A path is clear in a tree with more folders. -/
theorem Firm.clear (hclosed : t.Closed) (hfirm : t.Firm l names)
    (hgrown : ∀ m ∈ trailFrom l names, Grown t u m) : u.Clear l names := by
  induction names generalizing l with
  | nil => trivial
  | cons name names ih =>
    have hrest : ∀ m ∈ trailFrom (step l name) names, Grown t u m :=
      fun m hm => hgrown m (List.mem_cons_of_mem l hm)
    obtain ⟨hhere, hlater⟩ := firm_cons.1 hfirm
    refine ⟨fun hnone => ?_, ih hlater hrest⟩
    have hmissing : t.entry? (step l name) = none := by
      rcases hrest _ mem_trailFrom_first with hsame | ⟨hmissing, -⟩
      · exact hsame.symm.trans hnone
      · exact hmissing
    refine ⟨?_, fun m hm => ?_⟩
    · rintro rfl
      have habove := hclosed.above l (by rw [hhere rfl]; nofun)
      rw [show step l ".." = l.dropLast from rfl, habove] at hmissing
      cases hmissing
    · have hm' := hlater.trail_none hclosed hmissing hm
      rcases hrest m hm with hsame | ⟨-, hfolder⟩
      · rw [file?, hsame, hm']
      · rw [file?, hfolder]

/-! ## Changes -/

/-- Two trees are changed alike: where one of them is changed, they are then the same; and
folders stay. -/
structure Abreast (t t' u u' : FileTree) : Prop where
  here : t'.here = t.here ∧ u'.here = u.here
  folders : ∀ l, (t.entry? l = some .folder → t'.entry? l = some .folder) ∧
    (u.entry? l = some .folder → u'.entry? l = some .folder)
  entries : ∀ l, t'.entry? l = t.entry? l ∧ u'.entry? l = u.entry? l ∨ u'.entry? l = t'.entry? l

namespace Abreast

theorem refl (t u : FileTree) : Abreast t t u u :=
  ⟨⟨rfl, rfl⟩, fun _ => ⟨id, id⟩, fun _ => .inl ⟨rfl, rfl⟩⟩

theorem trans (h : Abreast t t' u u') (h' : Abreast t' t'' u' u'') : Abreast t t'' u u'' where
  here := ⟨h'.here.1.trans h.here.1, h'.here.2.trans h.here.2⟩
  folders l := ⟨(h'.folders l).1 ∘ (h.folders l).1, (h'.folders l).2 ∘ (h.folders l).2⟩
  entries l := by
    rcases h'.entries l with ⟨ht, hu⟩ | hsame
    · rw [ht, hu]
      exact h.entries l
    · exact .inr hsame

/-- What was the same stays the same. -/
theorem agree (h : Abreast t t' u u') (hl : u.entry? l = t.entry? l) :
    u'.entry? l = t'.entry? l := by
  rcases h.entries l with ⟨ht, hu⟩ | hsame
  · rw [ht, hu, hl]
  · exact hsame

/-- The same is put at a place where there is no folder. -/
theorem insert (hroot : l ≠ []) (ht : t.entry? l ≠ some .folder) (hu : u.entry? l ≠ some .folder)
    (entry : Entry) : Abreast t (t.insert l entry) u (u.insert l entry) := by
  have hstays {v : FileTree} (hv : v.entry? l ≠ some .folder) (m : Location)
      (hm : v.entry? m = some .folder) : entry? (v.insert l entry) m = some .folder := by
    rwa [entry?_insert_of_ne]
    rintro rfl
    exact hv hm
  refine ⟨⟨rfl, rfl⟩, fun m => ⟨hstays ht m, hstays hu m⟩, fun m => ?_⟩
  by_cases hm : m = l
  · rw [hm, entry?_insert_self hroot, entry?_insert_self hroot]
    exact .inr rfl
  · rw [entry?_insert_of_ne hm, entry?_insert_of_ne hm]
    exact .inl ⟨rfl, rfl⟩

/-- What is at a place is taken away, if it is no folder. -/
theorem erase (ht : t.entry? l ≠ some .folder) (hu : u.entry? l ≠ some .folder) :
    Abreast t (t.erase l) u (u.erase l) := by
  have hroot : l ≠ [] := by
    rintro rfl
    exact ht rfl
  have hstays {v : FileTree} (hv : v.entry? l ≠ some .folder) (m : Location)
      (hm : v.entry? m = some .folder) : entry? (v.erase l) m = some .folder := by
    rwa [entry?_erase_of_ne]
    rintro rfl
    exact hv hm
  refine ⟨⟨rfl, rfl⟩, fun m => ⟨hstays ht m, hstays hu m⟩, fun m => ?_⟩
  by_cases hm : m = l
  · rw [hm, entry?_erase_self hroot, entry?_erase_self hroot]
    exact .inr rfl
  · rw [entry?_erase_of_ne hm, entry?_erase_of_ne hm]
    exact .inl ⟨rfl, rfl⟩

/-- A folder is made where there is nothing. -/
theorem withFolder (h : Grown t u l) : Abreast t (t.withFolder l) u (u.withFolder l) where
  here := ⟨here_withFolder, here_withFolder⟩
  folders _ := ⟨folder_withFolder, folder_withFolder⟩
  entries m := by
    by_cases hm : m = l
    · subst hm
      exact .inr h.entry?_withFolder
    · simp [entry?_withFolder, hm]

end Abreast

/-- **Folders are laid alike** where the second tree has some of them already. -/
theorem lay_abreast (hl : u.entry? l = t.entry? l)
    (hgrown : ∀ m ∈ trailFrom l names, Grown t u m) :
    (u.lay l names).1 = (t.lay l names).1 ∧ Abreast t (t.lay l names).2 u (u.lay l names).2 := by
  induction names generalizing t u l with
  | nil =>
    rw [lay, lay, hl]
    exact ⟨rfl, .refl t u⟩
  | cons name names ih =>
    rcases ahead t l name with ⟨fault, -, hfault⟩ | ⟨hfolder, hgo⟩
    · rw [(hfault u hl names).1, (hfault t rfl names).1]
      exact ⟨rfl, .refl t u⟩
    · rw [(hgo u (hl.trans hfolder) names).1, (hgo t hfolder names).1]
      have hrest : ∀ m ∈ trailFrom (step l name) names, Grown t u m :=
        fun m hm => hgrown m (List.mem_cons_of_mem l hm)
      have hnext := hrest _ mem_trailFrom_first
      obtain ⟨hanswer, habreast⟩ :=
        ih hnext.entry?_withFolder fun m hm => hnext.withFolder (hrest m hm)
      exact ⟨hanswer, (Abreast.withFolder hnext).trans habreast⟩

/-- A path that leads nowhere is not read. -/
theorem read_of_follow_error (hlegible : Legible p) (hp : p.text.isEmpty = false)
    (h : t.follow (t.origin p) (namesOf p) = .error fault) : t.read p = .error fault := by
  have hnames : t.follow (t.origin p) (if endsOpen p then namesOf p ++ ["."] else namesOf p) =
      .error fault := by
    split
    · rw [follow_append, h]
      rfl
    · exact h
  have hfind : t.find p = .error fault := by
    rw [find, start_of_legible hlegible hp]
    simp only [bind, Except.bind, hnames]
  rw [read, hfind]
  rfl

/-- **The same is read at a path** in a tree with more folders, if its own place is the same,
its names are not too long and `..` leads out of folders only. -/
theorem read_grown (hclosed : t.Closed) (hhere : u.here = t.here)
    (hfirm : t.Firm (t.origin p) (namesOf p))
    (hshort : ∀ name ∈ namesOf p, name.utf8ByteSize ≤ nameLimit)
    (hgrown : ∀ m ∈ t.trail p, Grown t u m)
    (hplace : u.entry? (t.place p) = t.entry? (t.place p)) : u.read p = t.read p := by
  have hstart : u.start p = t.start p := by rw [start, start, hhere]
  have hfind : u.find p = t.find p := by
    rw [find, find, hstart]
    refine bind_congr_ok fun from' hstart => ?_
    obtain ⟨-, rfl⟩ := start_eq_ok hstart
    simp only
    -- what a path that ends in `/` has besides leads nowhere
    have hnames : ∃ idle, Idle idle ∧
        (if endsOpen p then namesOf p ++ ["."] else namesOf p) = namesOf p ++ idle := by
      split
      · exact ⟨["."], by simp [Idle], rfl⟩
      · exact ⟨[], by simp [Idle], (List.append_nil _).symm⟩
    obtain ⟨idle, hidle, hnames⟩ := hnames
    have hlast : (namesOf p ++ idle).foldl step (t.origin p) = t.place p := by
      rw [List.foldl_append, foldl_idle hidle]
      rfl
    have hfirm' : t.Firm (t.origin p) (namesOf p ++ idle) :=
      firm_append.2 ⟨hfirm, firm_idle hidle⟩
    have hshort' : ∀ name ∈ namesOf p ++ idle, name.utf8ByteSize ≤ nameLimit := by
      intro name hname
      rcases List.mem_append.1 hname with hname | hname
      · exact hshort name hname
      · rw [hidle name hname]
        decide
    have hgrown' : ∀ m ∈ trailFrom (t.origin p) (namesOf p ++ idle), Grown t u m := by
      intro m hm
      rcases mem_trailFrom_append.1 hm with hm | hm
      · exact hgrown m hm
      · rw [(mem_trailFrom_idle hidle).1 hm]
        exact hgrown _ mem_trailFrom_last
    have hcases := hfirm'.follow_cases hclosed hshort' hgrown'
    rw [hlast] at hcases
    rw [hnames]
    rcases hcases with hsame | ⟨hmissing, hnone, hcases⟩
    · rw [hsame]
      refine bind_congr_ok fun l hfollow => ?_
      rw [follow_eq_ok hfollow, hlast, hplace]
    · rw [hmissing]
      rcases hcases with hcases | hcases
      · rw [hcases]
        rfl
      · rw [hcases]
        simp only [bind, Except.bind, hplace, hnone]
  rw [read, read, hfind]

/-- The folders above a file are refused in both trees, or there is none, or they are laid in
both. -/
theorem makeParents_cases (hclosed : t.Closed) (hhere : u.here = t.here)
    (hfirm : t.Firm (t.origin p) (namesOf p)) (hgrown : ∀ m ∈ t.trail p, Grown t u m) :
    (∃ answer, (answer = .ok () → p.parent? = none) ∧
      Disk.makeParents (m := StateM FileTree) p t = (answer, t) ∧
      Disk.makeParents (m := StateM FileTree) p u = (answer, u)) ∨
    ∃ q, p.parent? = some q ∧
      Disk.makeParents (m := StateM FileTree) p t = t.lay (t.origin q) (namesOf q) ∧
      Disk.makeParents (m := StateM FileTree) p u = u.lay (t.origin q) (namesOf q) := by
  cases hparent : p.parent? with
  | none =>
    refine .inl ⟨.ok (), fun _ => rfl, ?_, ?_⟩
    · rw [Disk.makeParents, hparent]
      rfl
    · rw [Disk.makeParents, hparent]
      rfl
  | some q =>
    by_cases hlegible : Legible q
    · have hin := liesIn_of_parent hparent
      have hfolder := hclosed.origin q
      have hgrown' : ∀ m ∈ t.trail q, Grown t u m :=
        fun m hm => hgrown m (hin.mem_trail.2 (.inl hm))
      have hsame : t.origin p = t.origin q := hin.origin
      have hfirm' : t.Firm (t.origin q) (namesOf q) := by
        obtain ⟨-, idle, last, idle', -, -, hnames⟩ := hin
        rw [hsame, hnames, List.append_assoc] at hfirm
        exact (firm_append.1 hfirm).1
      have horigin : u.origin q = t.origin q := by rw [origin, origin, hhere]
      refine .inr ⟨q, rfl, ?_, ?_⟩
      · exact makeParents_eq_lay hparent hlegible hfolder
          (hfirm'.clear hclosed fun m _ => .inl rfl)
      · rw [← horigin]
        refine makeParents_eq_lay hparent hlegible ?_ ?_
        · rw [horigin]
          exact (hgrown' _ mem_trailFrom_first).folder hfolder
        · rw [horigin]
          exact hfirm'.clear hclosed hgrown'
    · obtain ⟨fault, hrefused⟩ := makeFolders_of_not_legible hlegible q.text.length
      refine .inl ⟨.error fault, by simp, ?_, ?_⟩
      · rw [Disk.makeParents, hparent]
        exact hrefused t
      · rw [Disk.makeParents, hparent]
        exact hrefused u

end MapDocument.FileTree
