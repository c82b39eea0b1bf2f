import MapDocument.Proofs.Disk.Lawful
import MapDocument.Proofs.Disk.Trail
/-!
# Disk — laying folders along a path

The folders that a file is to be in are made from the inside out: a folder that
cannot be made for want of the one around it is tried again after that one. On
a path that can be laid in one go it comes to the same as to go along the path
and to make a folder wherever there is nothing, up to the first thing that is
in the way.
-/

namespace MapDocument.FileTree

open Disk (ensureFolder makeFolders)

variable {t t' : FileTree} {p q : Path} {l m : Location} {names others : List String}
  {name : String} {fault : DiskFault}

/-! ## Laying folders -/

/-- The tree with a folder at a place where there is nothing. -/
def withFolder (t : FileTree) (l : Location) : FileTree :=
  if t.entry? l = none then t.insert l .folder else t

/-- Goes along names and makes a folder wherever there is nothing. -/
def lay (t : FileTree) (l : Location) : List String → Except DiskFault Unit × FileTree
  | [] => (if t.entry? l = some .folder then .ok () else .error .exists, t)
  | name :: rest =>
    match t.entry? l with
    | none => (.error .missing, t)
    | some (.file _) => (.error .notFolder, t)
    | some .folder =>
      if nameLimit < name.utf8ByteSize then (.error .nameTooLong, t)
      else lay (t.withFolder (step l name)) (step l name) rest

theorem withFolder_of_some (h : t.entry? l ≠ none) : t.withFolder l = t := if_neg h

theorem here_withFolder : (t.withFolder l).here = t.here := by
  rw [withFolder]
  split <;> rfl

/-- There is a folder where there was none, and nothing else is different. -/
theorem entry?_withFolder (t : FileTree) (l m : Location) :
    entry? (t.withFolder l) m =
      if m = l ∧ t.entry? l = none then some .folder else t.entry? m := by
  rw [withFolder]
  by_cases hnone : t.entry? l = none
  · rw [if_pos hnone]
    by_cases hm : m = l
    · have hroot : l ≠ [] := by
        rintro rfl
        cases hnone
      rw [if_pos ⟨hm, hnone⟩, hm, entry?_insert_self hroot]
    · rw [if_neg fun h => hm h.1, entry?_insert_of_ne hm]
  · rw [if_neg hnone, if_neg fun h => hnone h.2]

/-- Folders stay. -/
theorem folder_withFolder (h : t.entry? m = some .folder) :
    entry? (t.withFolder l) m = some .folder := by
  rw [entry?_withFolder]
  split
  · rfl
  · exact h

/-- And no file is made or taken away. -/
theorem file?_withFolder (t : FileTree) (l m : Location) :
    (t.withFolder l).file? m = t.file? m := by
  rw [file?, file?, entry?_withFolder]
  by_cases h : m = l ∧ t.entry? l = none
  · rw [if_pos h, h.1, h.2]
  · rw [if_neg h]

/-- **One name ahead**: either something is in the way, which depends on what is at the place
alone and keeps anything from being laid, or both go on from the next place. -/
theorem ahead (t : FileTree) (l : Location) (name : String) :
    (∃ fault, fault ≠ .exists ∧ ∀ t' : FileTree, t'.entry? l = t.entry? l → ∀ names,
      t'.lay l (name :: names) = (.error fault, t') ∧
        t'.follow l (name :: names) = .error fault) ∨
    t.entry? l = some .folder ∧ ∀ t' : FileTree, t'.entry? l = some .folder → ∀ names,
      t'.lay l (name :: names) = (t'.withFolder (step l name)).lay (step l name) names ∧
        t'.follow l (name :: names) = t'.follow (step l name) names := by
  cases hl : t.entry? l with
  | none =>
    refine .inl ⟨.missing, by decide, fun t' ht' names => ?_⟩
    simp only [lay, follow, ht', and_self]
  | some entry =>
    cases entry with
    | file content =>
      refine .inl ⟨.notFolder, by decide, fun t' ht' names => ?_⟩
      simp only [lay, follow, ht', and_self]
    | folder =>
      by_cases hlong : nameLimit < name.utf8ByteSize
      · refine .inl ⟨.nameTooLong, by decide, fun t' ht' names => ?_⟩
        simp only [lay, follow, ht', if_pos hlong, and_self]
      · refine .inr ⟨rfl, fun t' ht' names => ?_⟩
        simp only [lay, follow, ht', if_neg hlong, and_self]

/-- Nothing is different but that there are folders where there was nothing. -/
theorem entry?_lay (t : FileTree) (l : Location) (names : List String) (m : Location) :
    entry? (t.lay l names).2 m = t.entry? m ∨
      t.entry? m = none ∧ entry? (t.lay l names).2 m = some .folder := by
  induction names generalizing t l with
  | nil => exact .inl rfl
  | cons name names ih =>
    rcases ahead t l name with ⟨fault, -, hfault⟩ | ⟨hl, hgo⟩
    · rw [(hfault t rfl names).1]
      exact .inl rfl
    · rw [(hgo t hl names).1]
      have hrest := ih (t.withFolder (step l name)) (step l name)
      rw [entry?_withFolder] at hrest
      split at hrest
      · rename_i hm
        rcases hrest with hrest | ⟨hnone, -⟩
        · exact .inr ⟨hm.1 ▸ hm.2, hrest⟩
        · cases hnone
      · exact hrest

/-- So folders stay. -/
theorem folder_lay (h : t.entry? m = some .folder) : entry? (t.lay l names).2 m = some .folder := by
  rcases entry?_lay t l names m with hsame | ⟨hnone, -⟩
  · exact hsame.trans h
  · rw [h] at hnone
    cases hnone

theorem here_lay : (t.lay l names).2.here = t.here := by
  induction names generalizing t l with
  | nil => rfl
  | cons name names ih =>
    rcases ahead t l name with ⟨fault, -, hfault⟩ | ⟨hl, hgo⟩
    · rw [(hfault t rfl names).1]
    · rw [(hgo t hl names).1, ih, here_withFolder]

/-- **What is laid can be followed.** -/
theorem follow_of_lay (h : (t.lay l names).1 = .ok ()) :
    (t.lay l names).2.follow l (names ++ ["."]) = .ok (names.foldl step l) := by
  induction names generalizing t l with
  | nil =>
    refine follow_stay_eq_ok.2 ⟨rfl, ?_⟩
    rw [lay] at h ⊢
    by_contra hne
    rw [if_neg hne] at h
    cases h
  | cons name names ih =>
    rcases ahead t l name with ⟨fault, -, hfault⟩ | ⟨hl, hgo⟩
    · rw [(hfault t rfl names).1] at h
      cases h
    · rw [(hgo t hl names).1] at h ⊢
      rw [List.cons_append, (hgo _ (folder_lay (folder_withFolder hl)) _).2]
      exact ih h

/-- One path is laid after the other. -/
theorem lay_append_of_ok (h : (t.lay l names).1 = .ok ()) :
    t.lay l (names ++ others) = (t.lay l names).2.lay (names.foldl step l) others := by
  induction names generalizing t l with
  | nil => rfl
  | cons name names ih =>
    rcases ahead t l name with ⟨fault, -, hfault⟩ | ⟨hl, hgo⟩
    · rw [(hfault t rfl names).1] at h
      cases h
    · rw [(hgo t hl names).1] at h ⊢
      rw [List.cons_append, (hgo t hl _).1]
      exact ih h

/-- What is in the way of a path is in the way of one that goes on, unless it is at its end. -/
theorem lay_append_of_error (h : (t.lay l names).1 = .error fault) (hend : fault ≠ .exists) :
    t.lay l (names ++ others) = t.lay l names := by
  induction names generalizing t l with
  | nil =>
    rw [lay] at h
    split at h
    · cases h
    · cases h
      exact absurd rfl hend
  | cons name names ih =>
    rcases ahead t l name with ⟨fault, -, hfault⟩ | ⟨hl, hgo⟩
    · rw [List.cons_append, (hfault t rfl _).1, (hfault t rfl _).1]
    · rw [(hgo t hl names).1] at h ⊢
      rw [List.cons_append, (hgo t hl _).1]
      exact ih h

/-- Names that lead nowhere can be followed from a folder. -/
theorem follow_of_idle (h : Idle names) (hl : t.entry? l = some .folder) :
    t.follow l names = .ok l := by
  induction names with
  | nil => rfl
  | cons name names ih =>
    rw [h name List.mem_cons_self, ← List.singleton_append, follow_append,
      follow_stay_eq_ok.2 ⟨rfl, hl⟩]
    exact ih fun name' hname => h name' (List.mem_cons_of_mem name hname)

/-- What leads into a folder is all the same with names that lead nowhere. -/
theorem follow_append_idle (h : Idle others) :
    t.follow l (names ++ others ++ ["."]) = t.follow l (names ++ ["."]) := by
  cases others with
  | nil => rw [List.append_nil]
  | cons name others =>
    have hsplit : names ++ name :: others ++ ["."] = names ++ ["."] ++ (others ++ ["."]) := by
      rw [h name List.mem_cons_self]
      simp
    rw [hsplit, follow_append]
    cases hfollow : t.follow l (names ++ ["."]) with
    | error fault => rfl
    | ok m =>
      obtain ⟨_, -, hstay⟩ := bind_eq_ok.1 (follow_append.symm.trans hfollow)
      obtain ⟨rfl, hm⟩ := follow_stay_eq_ok.1 hstay
      refine follow_of_idle ?_ hm
      intro name' hname
      rcases List.mem_append.1 hname with hname | hname
      · exact h name' (List.mem_cons_of_mem name hname)
      · exact List.mem_singleton.1 hname

/-- There is something at a place from which names can be followed. -/
theorem follow_of_none (h : t.entry? l = none) :
    t.follow l (names ++ ["."]) = .error .missing := by
  cases names <;> simp [follow, h]

/-- Nothing is laid where there are folders already. -/
theorem lay_of_follow (h : t.follow l (names ++ ["."]) = .ok m) :
    t.lay l (names ++ others) = t.lay m others := by
  induction names generalizing l with
  | nil =>
    obtain ⟨rfl, -⟩ := follow_stay_eq_ok.1 h
    rfl
  | cons name names ih =>
    rcases ahead t l name with ⟨fault, -, hfault⟩ | ⟨hl, hgo⟩
    · rw [List.cons_append, (hfault t rfl _).2] at h
      cases h
    · rw [List.cons_append, (hgo t hl _).2] at h
      have hnext : t.entry? (step l name) ≠ none := by
        intro hnone
        rw [follow_of_none hnone] at h
        cases h
      rw [List.cons_append, (hgo t hl _).1, withFolder_of_some hnext]
      exact ih h

/-- Nor where something but a missing folder is in the way of the last name. -/
theorem lay_of_follow_error (h : t.follow l (names ++ ["."]) = .error fault)
    (hmissing : fault ≠ .missing) : t.lay l (names ++ name :: others) = (.error fault, t) := by
  induction names generalizing l with
  | nil =>
    have hshort : ¬ nameLimit < ".".utf8ByteSize := by decide
    rw [List.nil_append, follow, if_neg hshort] at h
    cases hl : t.entry? l with
    | none =>
      rw [hl] at h
      cases h
      exact absurd rfl hmissing
    | some entry =>
      rw [hl] at h
      cases entry with
      | file content =>
        cases h
        simp only [List.nil_append, lay, hl]
      | folder => cases h
  | cons name' names ih =>
    rcases ahead t l name' with ⟨fault', -, hfault⟩ | ⟨hl, hgo⟩
    · rw [List.cons_append, (hfault t rfl _).2] at h
      cases h
      rw [List.cons_append, (hfault t rfl _).1]
    · rw [List.cons_append, (hgo t hl _).2] at h
      have hnext : t.entry? (step l name') ≠ none := by
        intro hnone
        rw [follow_of_none hnone] at h
        cases h
        exact hmissing rfl
      rw [List.cons_append, (hgo t hl _).1, withFolder_of_some hnext]
      exact ih h

/-! ## Paths that are clear -/

/-- Names along which nothing is in the way behind a place where there is nothing: `..` does
not lead there, and no file comes after it. -/
def Clear (t : FileTree) (l : Location) : List String → Prop
  | [] => True
  | name :: rest =>
    (t.entry? (step l name) = none →
      name ≠ ".." ∧ ∀ m ∈ trailFrom (step l name) rest, t.file? m = none) ∧
    Clear t (step l name) rest

theorem Clear.of_append (h : t.Clear l (names ++ others)) :
    t.Clear l names ∧ t.Clear (names.foldl step l) others := by
  induction names generalizing l with
  | nil => exact ⟨trivial, h⟩
  | cons name names ih =>
    obtain ⟨hnone, hrest⟩ := h
    obtain ⟨hnames, hothers⟩ := ih hrest
    refine ⟨⟨fun hl => ⟨(hnone hl).1, fun m hm => ?_⟩, hnames⟩, hothers⟩
    exact (hnone hl).2 m (mem_trailFrom_append.2 (.inl hm))

/-- Where there are no files, none is in the way of the last folder. -/
theorem lay_ne_exists (hl : t.entry? l = some .folder)
    (h : ∀ m ∈ trailFrom l names, t.file? m = none) : (t.lay l names).1 ≠ .error .exists := by
  induction names generalizing t l with
  | nil =>
    rw [lay, if_pos hl]
    nofun
  | cons name names ih =>
    rcases ahead t l name with ⟨fault, hne, hfault⟩ | ⟨-, hgo⟩
    · rw [(hfault t rfl names).1]
      exact fun heq => hne (Except.error.inj heq)
    · rw [(hgo t hl names).1]
      have hrest : ∀ m ∈ trailFrom (step l name) names, t.file? m = none :=
        fun m hm => h m (List.mem_cons_of_mem l hm)
      refine ih ?_ fun m hm => ?_
      · rw [entry?_withFolder]
        have hnext := hrest _ mem_trailFrom_first
        rw [file?] at hnext
        cases hentry : t.entry? (step l name) with
        | none => rw [if_pos ⟨rfl, rfl⟩]
        | some entry =>
          cases entry with
          | file content => simp [hentry] at hnext
          | folder => rw [if_neg (by simp)]
      · rw [file?_withFolder]
        exact hrest m hm

/-- On a clear path the last folder is in the way of itself only where all before it are there. -/
theorem follow_ne_missing (hclear : t.Clear l names) (hl : t.entry? l = some .folder)
    (h : (t.lay l names).1 = .error .exists) : t.follow l (names ++ ["."]) ≠ .error .missing := by
  induction names generalizing l with
  | nil =>
    rw [lay, if_pos hl] at h
    cases h
  | cons name names ih =>
    obtain ⟨hnone, hrest⟩ := hclear
    rcases ahead t l name with ⟨fault, hne, hfault⟩ | ⟨-, hgo⟩
    · rw [(hfault t rfl names).1] at h
      exact absurd (Except.error.inj h) hne
    · rw [(hgo t hl names).1] at h
      rw [List.cons_append, (hgo t hl _).2]
      cases hentry : t.entry? (step l name) with
      | none =>
        -- all that comes after it is laid
        refine absurd h (lay_ne_exists ?_ fun m hm => ?_)
        · rw [entry?_withFolder, if_pos ⟨rfl, hentry⟩]
        · rw [file?_withFolder]
          exact (hnone hentry).2 m hm
      | some entry =>
        rw [withFolder_of_some (by rw [hentry]; nofun)] at h
        cases entry with
        | folder => exact ih hrest hentry h
        | file content =>
          intro hmissing
          cases names <;> simp [follow, hentry] at hmissing

/-! ## One folder -/

/-- There is a folder at a path that can be followed into one. -/
theorem isFolder_iff (hstart : t.start p = .ok (t.origin p, namesOf p)) :
    t.isFolder p = true ↔ ∃ l, t.follow (t.origin p) (namesOf p ++ ["."]) = .ok l := by
  constructor
  · intro h
    rw [isFolder] at h
    split at h
    · rename_i l hfind
      obtain ⟨-, hl⟩ := find_eq_ok hfind
      obtain ⟨_, hstart', hfind⟩ := bind_eq_ok.1 hfind
      cases hstart.symm.trans hstart'
      obtain ⟨m, hfollow, hfind⟩ := bind_eq_ok.1 hfind
      have hm : m = l := by
        split at hfind
        · exact (Prod.mk.inj (Except.ok.inj hfind)).1
        · cases hfind
      rw [hm] at hfollow
      split at hfollow
      · exact ⟨l, hfollow⟩
      · exact ⟨l, follow_append.trans (bind_eq_ok.2 ⟨l, hfollow, follow_stay_eq_ok.2 ⟨rfl, hl⟩⟩)⟩
    · cases h
  · rintro ⟨l, h⟩
    obtain ⟨m, hfollow, hstay⟩ := bind_eq_ok.1 (follow_append.symm.trans h)
    obtain ⟨rfl, hl⟩ := follow_stay_eq_ok.1 hstay
    have hfind : t.find p = .ok (l, .folder) := by
      refine bind_eq_ok.2 ⟨_, hstart, bind_eq_ok.2 ⟨l, ?_, ?_⟩⟩
      · split
        · exact h
        · exact hfollow
      · rw [hl]
        rfl
    rw [isFolder, hfind]

/-- A folder at a path is made if there is nothing, and has to be there otherwise. -/
theorem ensureFolder_eq (p : Path) (t : FileTree) :
    ensureFolder (m := StateM FileTree) p t = match t.makeFolder p with
      | .ok t' => (.ok (), t')
      | .error fault => (if t.isFolder p then .ok () else .error fault, t) := by
  have hmakes : Disk.makeFolder (m := StateM FileTree) p t = attempt (·.makeFolder p) t := rfl
  rw [ensureFolder, Disk.run_bind, hmakes, Disk.attempt_eq]
  cases t.makeFolder p <;> rfl

section OneFolder

variable (hstart : t.start p = .ok (t.origin p, namesOf p)) (hnames : namesOf p = names ++ [name])
include hstart hnames

/-- What is in the way of the last name is in the way of the folder. -/
theorem ensureFolder_of_follow_error (h : t.follow (t.origin p) (names ++ ["."]) = .error fault) :
    ensureFolder (m := StateM FileTree) p t = (.error fault, t) := by
  have hmake : t.makeFolder p = .error fault := by
    rw [makeFolder, spot, hstart, hnames]
    simp [bind, Except.bind, h]
  have hlook : t.isFolder p = false := by
    by_contra htrue
    obtain ⟨l, hl⟩ := (isFolder_iff hstart).1 (by simpa using htrue)
    rw [hnames, List.append_assoc] at hl
    obtain ⟨m, hm, hrest⟩ := bind_eq_ok.1 (follow_append.symm.trans hl)
    have hstay : t.follow m ["."] = .error fault := by
      rw [follow_append, hm] at h
      exact h
    rcases ahead t m name with ⟨fault', -, hfault⟩ | ⟨hfolder, -⟩
    · cases ((hfault t rfl ["."]).2).symm.trans hrest
    · rw [follow_stay_eq_ok.2 ⟨rfl, hfolder⟩] at hstay
      cases hstay
  rw [ensureFolder_eq, hmake, hlook]
  rfl

/-- The spot of a folder behind folders that are there. -/
theorem spot_of_follow (h : t.follow (t.origin p) (names ++ ["."]) = .ok l) :
    t.spot p = .ok (l, (some name).filter fun name => name ≠ "." && name ≠ "..") := by
  refine bind_eq_ok.2 ⟨_, hstart, bind_eq_ok.2 ⟨l, ?_, ?_⟩⟩
  · rw [hnames, List.dropLast_concat, h]
  · rw [hnames, List.getLast?_concat]
    rfl

/-- Behind folders that are there, a folder is made as it is laid. -/
theorem ensureFolder_of_follow (h : t.follow (t.origin p) (names ++ ["."]) = .ok l)
    (hdots : t.entry? (step l name) = none → name ≠ "..") :
    ensureFolder (m := StateM FileTree) p t = t.lay l [name] := by
  have hspot := spot_of_follow hstart hnames h
  obtain ⟨m, hbefore, hstay⟩ := bind_eq_ok.1 (follow_append.symm.trans h)
  obtain ⟨rfl, hl⟩ := follow_stay_eq_ok.1 hstay
  have hlook : t.isFolder p = true ↔ ∃ m, t.follow l [name, "."] = .ok m := by
    rw [isFolder_iff hstart, hnames, List.append_assoc, follow_append, hbefore]
    rfl
  have hproper (hname : ¬(name = "." ∨ name = "..")) :
      (some name).filter (fun name => name ≠ "." && name ≠ "..") = some name := by
    simpa [Option.filter_eq_some_iff] using hname
  rw [ensureFolder_eq, makeFolder, hspot]
  by_cases hlong : nameLimit < name.utf8ByteSize
  · have hname : ¬(name = "." ∨ name = "..") := by
      rintro (rfl | rfl) <;> exact absurd hlong (by decide)
    have hnone : t.isFolder p = false := by
      rw [← Bool.not_eq_true, hlook]
      simp [follow, hl, hlong]
    rw [hproper hname, hnone]
    simp [bind, Except.bind, slot, follow, lay, hl, hlong]
  · have hfound : t.isFolder p = true ↔ t.entry? (step l name) = some .folder := by
      have hgo : t.follow l [name, "."] = t.follow (step l name) ["."] := by
        rw [follow, hl]
        exact if_neg hlong
      simp [hlook, hgo, follow_stay_eq_ok]
    have hlay : t.lay l [name] = (if entry? (t.withFolder (step l name)) (step l name) =
        some .folder then .ok () else .error .exists, t.withFolder (step l name)) := by
      simp only [lay, hl, if_neg hlong]
    rw [hlay, entry?_withFolder]
    by_cases hname : name = "." ∨ name = ".."
    · -- such a name is of a folder that is there, or that cannot be made
      have hthere : t.entry? (step l name) ≠ none := by
        rcases hname with rfl | rfl
        · rw [step_stay, hl]
          exact Option.some_ne_none _
        · exact fun hnone => hdots hnone rfl
      have hfilter : (some name).filter (fun name => name ≠ "." && name ≠ "..") = none := by
        rcases hname with rfl | rfl <;> rfl
      have hstays : ¬(step l name = step l name ∧ t.entry? (step l name) = none) :=
        fun hnone => hthere hnone.2
      rw [hfilter, withFolder_of_some hthere, if_neg hstays]
      simp [bind, Except.bind, hfound]
    · have hslot : t.slot l name = .ok (step l name, t.entry? (step l name)) := by
        simp [bind, Except.bind, pure, Except.pure, slot, follow, hl, hlong]
      rw [hproper hname]
      cases hentry : t.entry? (step l name) with
      | none => simp [bind, Except.bind, pure, Except.pure, hslot, hentry, withFolder]
      | some entry =>
        have hthere : t.entry? (step l name) ≠ none := by
          rw [hentry]
          exact Option.some_ne_none _
        rw [withFolder_of_some hthere]
        simp [bind, Except.bind, hslot, hentry, hfound]

end OneFolder

/-! ## All folders -/

/-- A text that a path can have. -/
def Legible (p : Path) : Prop := '\x00' ∉ p.text.toList ∧ p.text.utf8ByteSize ≤ pathLimit

/-- A path that can be one starts from a folder, unless it is empty. -/
theorem start_of_legible (h : Legible p) (hp : p.text.isEmpty = false) (t : FileTree) :
    t.start p = .ok (t.origin p, namesOf p) := by
  have hlong : ¬ pathLimit < p.text.utf8ByteSize := by
    have hsize := h.2
    omega
  rw [start, hp, if_neg (by simpa using h.1), if_neg Bool.false_ne_true, if_neg hlong]
  rfl

/-- One that cannot be is refused, whatever the disk. -/
theorem start_of_not_legible (h : ¬ Legible p) (hp : p.text.isEmpty = false) :
    ∃ fault, fault ≠ .missing ∧ ∀ t : FileTree, t.start p = .error fault := by
  by_cases hzero : '\x00' ∈ p.text.toList
  · refine ⟨.zeroInPath, by decide, fun t => ?_⟩
    rw [start, if_pos (by simpa using hzero)]
  · have hlong : pathLimit < p.text.utf8ByteSize := by
      by_contra hshort
      exact h ⟨hzero, by omega⟩
    refine ⟨.nameTooLong, by decide, fun t => ?_⟩
    rw [start, hp, if_neg (by simpa using hzero), if_neg Bool.false_ne_true, if_pos hlong]

/-- The beginning of a path can be one. -/
theorem Legible.of_beginning (h : Legible p) (hq : q.text.toList <+: p.text.toList) : Legible q := by
  obtain ⟨rest, hrest⟩ := hq
  have htext : p.text = q.text ++ String.ofList rest := by
    apply String.toList_injective
    rw [String.toList_append, String.toList_ofList, hrest]
  refine ⟨fun hzero => h.1 ?_, ?_⟩
  · rw [← hrest]
    exact List.mem_append_left rest hzero
  · have hsize := h.2
    rw [htext, String.utf8ByteSize_append] at hsize
    omega

/-- The first of some folders is made, or waits for those that it is in. -/
theorem makeFolders_cons (above : List Path) (hp : p.text.isEmpty = false) (t : FileTree) :
    makeFolders (m := StateM FileTree) (p :: above) t =
      match ensureFolder (m := StateM FileTree) p t with
      | (.error .missing, t') =>
        (match makeFolders (m := StateM FileTree) above t' with
        | (.error fault, t'') => (.error fault, t'')
        | (.ok (), t'') => ensureFolder (m := StateM FileTree) p t'')
      | answer => answer := by
  rw [makeFolders, hp, if_neg Bool.false_ne_true, Disk.run_bind]
  generalize ensureFolder (m := StateM FileTree) p t = first
  obtain ⟨answer, t'⟩ := first
  cases answer with
  | ok done => rfl
  | error fault =>
    cases fault
    case missing =>
      simp only
      rw [Disk.run_bind]
      generalize makeFolders (m := StateM FileTree) above t' = second
      obtain ⟨answer, t''⟩ := second
      cases answer <;> rfl
    all_goals rfl

/-- Where a path is refused, no folder is made. -/
theorem makeFolders_of_not_legible (h : ¬ Legible p) (n : Nat) :
    ∃ fault, ∀ t : FileTree,
      makeFolders (m := StateM FileTree) (p.ancestorsWithin (n + 1)) t = (.error fault, t) := by
  have hp : p.text.isEmpty = false := by
    rw [← Bool.not_eq_true, String.isEmpty_iff]
    intro hempty
    refine h ⟨?_, ?_⟩
    · simp [hempty]
    · rw [hempty]
      decide
  obtain ⟨fault, hmissing, hstart⟩ := start_of_not_legible h hp
  refine ⟨fault, fun t => ?_⟩
  have hmake : t.makeFolder p = .error fault := by
    rw [makeFolder, spot, hstart]
    rfl
  have hlook : t.isFolder p = false := by
    rw [isFolder, find, hstart]
    rfl
  have hensure : ensureFolder (m := StateM FileTree) p t = (.error fault, t) := by
    rw [ensureFolder_eq, hmake, hlook]
    rfl
  rw [Path.ancestorsWithin, makeFolders_cons _ hp, hensure]
  cases fault
  case missing => exact absurd rfl hmissing
  all_goals rfl

/-- A single folder that is laid in another is not found missing. -/
theorem lay_singleton_ne_missing (hl : t.entry? l = some .folder) :
    (t.lay l [name]).1 ≠ .error .missing := by
  simp only [lay, hl]
  split
  · nofun
  · split <;> nofun

section Behind

variable {above : List Path} {before idle : List String} {last : String}
  (hp : p.text.isEmpty = false) (hlegible : Legible p) (hidle : Idle idle)
  (hnames : namesOf p = before ++ idle ++ [last]) (hclear : t.Clear (t.origin p) (namesOf p))
include hp hlegible hidle hnames hclear

/-- Once the folders above it are laid, a folder is laid behind them. -/
theorem ensureFolder_of_lay (h : (t.lay (t.origin p) before).1 = .ok ()) :
    ensureFolder (m := StateM FileTree) p (t.lay (t.origin p) before).2 =
      t.lay (t.origin p) (namesOf p) := by
  rw [hnames, List.append_assoc] at hclear
  rw [hnames, List.append_assoc, lay_append_of_ok h]
  obtain ⟨-, hclearRest⟩ := hclear.of_append
  obtain ⟨-, hclearLast⟩ := hclearRest.of_append
  have hfollow := follow_of_lay h
  have hunlaid := entry?_lay t (t.origin p) before
  have hhere : (t.lay (t.origin p) before).2.here = t.here := here_lay
  generalize (t.lay (t.origin p) before).2 = t' at hfollow hunlaid hhere ⊢
  have hsame : t'.origin p = t.origin p := by rw [origin, origin, hhere]
  obtain ⟨m, -, hstay⟩ := bind_eq_ok.1 (follow_append.symm.trans hfollow)
  obtain ⟨rfl, hl⟩ := follow_stay_eq_ok.1 hstay
  rw [foldl_idle hidle] at hclearLast
  have hfront : t'.follow (t'.origin p) (before ++ idle ++ ["."]) =
      .ok (before.foldl step (t.origin p)) := by
    rw [follow_append_idle hidle, hsame, hfollow]
  rw [ensureFolder_of_follow (start_of_legible hlegible hp t') hnames hfront,
    lay_of_follow (follow_append.trans (bind_eq_ok.2 ⟨_, follow_of_idle hidle hl, hstay⟩))]
  intro hnone
  rcases hunlaid (step (before.foldl step (t.origin p)) last) with hthere | ⟨hthere, -⟩
  · exact (hclearLast.1 (hthere.symm.trans hnone)).1
  · exact (hclearLast.1 hthere).1

/-- A folder is laid behind those above it, if they are. -/
theorem makeFolders_cons_eq_lay (horigin : t.entry? (t.origin p) = some .folder)
    (habove : makeFolders (m := StateM FileTree) above t = t.lay (t.origin p) before) :
    makeFolders (m := StateM FileTree) (p :: above) t = t.lay (t.origin p) (namesOf p) := by
  have hstart := start_of_legible hlegible hp t
  have hclear' := hclear
  rw [hnames] at hclear'
  obtain ⟨hclearFront, hclearLast⟩ := hclear'.of_append
  rw [makeFolders_cons _ hp]
  cases hfollow : t.follow (t.origin p) (before ++ idle ++ ["."]) with
  | ok l =>
    -- all that is before the last name is there
    obtain ⟨m, hfront, hstay⟩ := bind_eq_ok.1 (follow_append.symm.trans hfollow)
    obtain ⟨rfl, hl⟩ := follow_stay_eq_ok.1 hstay
    rw [← follow_eq_ok hfront] at hclearLast
    have hmissing : (t.lay l [last]).1 ≠ .error .missing := lay_singleton_ne_missing hl
    rw [ensureFolder_of_follow hstart hnames hfollow fun hnone => (hclearLast.1 hnone).1, hnames,
      lay_of_follow hfollow]
    generalize t.lay l [last] = laid at hmissing ⊢
    obtain ⟨fault | done, t'⟩ := laid
    · cases fault
      case missing => exact absurd rfl hmissing
      all_goals rfl
    · rfl
  | error fault =>
    rw [ensureFolder_of_follow_error hstart hnames hfollow]
    by_cases hmissing : fault = .missing
    · subst hmissing
      have hensure := ensureFolder_of_lay hp hlegible hidle hnames hclear
      simp only
      rw [habove]
      rw [follow_append_idle hidle] at hfollow
      have hend : (t.lay (t.origin p) before).1 ≠ .error .exists :=
        fun h => follow_ne_missing hclearFront.of_append.1 horigin h hfollow
      rw [hnames, List.append_assoc] at hensure ⊢
      have hstop : ∀ fault, (t.lay (t.origin p) before).1 = .error fault →
          t.lay (t.origin p) (before ++ (idle ++ [last])) = t.lay (t.origin p) before :=
        fun fault h => lay_append_of_error h fun heq => hend (heq ▸ h)
      generalize t.lay (t.origin p) before = laid at hensure hstop ⊢
      obtain ⟨fault | done, t'⟩ := laid
      · exact (hstop fault rfl).symm
      · exact hensure rfl
    · rw [hnames, lay_of_follow_error hfollow hmissing]
      cases fault
      case missing => exact absurd rfl hmissing
      all_goals rfl

end Behind

/-- **The folders of a clear path are laid.** -/
theorem makeFolders_eq_lay {n : Nat} (hn : p.text.length < n) (hlegible : Legible p)
    (hclean : Clean p) (horigin : t.entry? (t.origin p) = some .folder)
    (hclear : t.Clear (t.origin p) (namesOf p)) :
    makeFolders (m := StateM FileTree) (p.ancestorsWithin n) t =
      t.lay (t.origin p) (namesOf p) := by
  induction n generalizing p with
  | zero => omega
  | succ n ih =>
    rw [Path.ancestorsWithin]
    by_cases hp : p.text.isEmpty = true
    · have hempty : p = ⟨""⟩ := congrArg Path.mk (String.isEmpty_iff.1 hp)
      have hnames : namesOf p = [] := by
        rw [hempty]
        rfl
      rw [makeFolders, if_pos hp, hnames, lay, if_pos horigin]
      rfl
    · have hp : p.text.isEmpty = false := by simpa using hp
      cases hparent : p.parent? with
      | none =>
        have hnames := hclean.names_of_none hparent
        have hstart := start_of_legible hlegible hp t
        have hstay : t.follow (t.origin p) ["."] = .ok (t.origin p) :=
          follow_stay_eq_ok.2 ⟨rfl, horigin⟩
        have hmake : t.makeFolder p = .error .exists := by
          rw [makeFolder, spot, hstart, hnames]
          simp [bind, Except.bind, pure, Except.pure, hstay]
        have hlook : t.isFolder p = true :=
          (isFolder_iff hstart).2 ⟨t.origin p, by rw [hnames]; exact hstay⟩
        rw [makeFolders_cons _ hp, ensureFolder_eq, hmake, hlook, hnames, lay, if_pos horigin]
        rfl
      | some q =>
        obtain ⟨idle, last, hidle, hnames⟩ := hclean.names_of_parent hparent
        obtain ⟨hbegins, hshort⟩ := Path.parent?_prefix hparent
        have hsame : t.origin p = t.origin q := (liesIn_of_parent hparent).origin
        have hclear' := hclear
        rw [hnames, List.append_assoc] at hclear'
        refine makeFolders_cons_eq_lay hp hlegible hidle hnames hclear horigin ?_
        rw [hsame] at horigin hclear' ⊢
        exact ih (by omega) (hlegible.of_beginning hbegins) (clean_of_parent hparent) horigin
          hclear'.of_append.1

/-- So are those of a file. -/
theorem makeParents_eq_lay (hparent : p.parent? = some q) (hlegible : Legible q)
    (horigin : t.entry? (t.origin q) = some .folder)
    (hclear : t.Clear (t.origin q) (namesOf q)) :
    Disk.makeParents (m := StateM FileTree) p t = t.lay (t.origin q) (namesOf q) := by
  rw [Disk.makeParents, hparent]
  exact makeFolders_eq_lay (Nat.lt_succ_self _) hlegible (clean_of_parent hparent) horigin hclear

end MapDocument.FileTree
