import MapDocument.Proofs.Disk.Ancestors
/-!
# Disk — the places that a path leads through

What is found at a path, and what can be done there, depends on nothing but
what is at the places that the path leads through, from where it starts to its
own. Two trees that are alike at these places answer alike.
-/

namespace MapDocument.FileTree

variable {t t' : FileTree} {p q : Path} {l m : Location} {names others : List String}

/-! ## Trails -/

/-- The places that names lead through, with the first and the last of them. -/
def trailFrom (l : Location) : List String → List Location
  | [] => [l]
  | name :: rest => l :: trailFrom (step l name) rest

/-- The places that a path leads through. -/
def trail (t : FileTree) (p : Path) : List Location := trailFrom (t.origin p) (namesOf p)

theorem mem_trailFrom_first : l ∈ trailFrom l names := by
  cases names <;> exact List.mem_cons_self

theorem mem_trailFrom_append :
    m ∈ trailFrom l (names ++ others) ↔
      m ∈ trailFrom l names ∨ m ∈ trailFrom (names.foldl step l) others := by
  induction names generalizing l with
  | nil =>
    refine ⟨.inr, ?_⟩
    rintro (hm | hm)
    · rw [List.mem_singleton.1 hm]
      exact mem_trailFrom_first
    · exact hm
  | cons name names ih =>
    simp only [List.cons_append, trailFrom, List.mem_cons, List.foldl_cons, ih, or_assoc]

theorem mem_trailFrom_last : names.foldl step l ∈ trailFrom l names := by
  have happend : names.foldl step l ∈ trailFrom l (names ++ []) :=
    mem_trailFrom_append.2 (.inr List.mem_cons_self)
  rwa [List.append_nil] at happend

/-- The place of a path is the last one that it leads through. -/
theorem place_mem_trail (t : FileTree) (p : Path) : t.place p ∈ t.trail p := mem_trailFrom_last

/-- Names that lead nowhere lead through a single place. -/
theorem foldl_idle (h : Idle names) : names.foldl step l = l := by
  induction names with
  | nil => rfl
  | cons name names ih =>
    rw [List.foldl_cons, h name List.mem_cons_self, step_stay]
    exact ih fun name' hname => h name' (List.mem_cons_of_mem name hname)

theorem mem_trailFrom_idle (h : Idle names) : m ∈ trailFrom l names ↔ m = l := by
  induction names with
  | nil => exact List.mem_singleton
  | cons name names ih =>
    have hrest := ih fun name' hname => h name' (List.mem_cons_of_mem name hname)
    rw [trailFrom, h name List.mem_cons_self, step_stay, List.mem_cons, hrest, or_self]

/-- A path starts from where the one that it lies in does. -/
theorem LiesIn.origin (h : LiesIn p q) : t.origin p = t.origin q := by
  rw [FileTree.origin, FileTree.origin]
  simp only [h.1]

/-- **It leads through the places of that one, and to its own.** -/
theorem LiesIn.mem_trail (h : LiesIn p q) :
    m ∈ t.trail p ↔ m ∈ t.trail q ∨ m = t.place p := by
  have horigin : t.origin p = t.origin q := h.origin
  obtain ⟨-, idle, last, idle', hidle, hidle', hnames⟩ := h
  have hbefore : (namesOf q ++ idle).foldl step (t.origin q) = t.place q := by
    rw [List.foldl_append, foldl_idle hidle]
    rfl
  have hplace : t.place p = step (t.place q) last := by
    rw [place, hnames, horigin, List.foldl_append, hbefore, List.foldl_cons, foldl_idle hidle']
  rw [trail, hnames, horigin, mem_trailFrom_append, mem_trailFrom_append, hbefore, hplace]
  have hq : t.place q ∈ t.trail q := place_mem_trail t q
  have hstay : m ∈ trailFrom ((namesOf q).foldl step (t.origin q)) idle ↔ m = t.place q :=
    mem_trailFrom_idle hidle
  rw [hstay, trailFrom, List.mem_cons, mem_trailFrom_idle hidle']
  constructor
  · rintro ((hm | rfl) | rfl | rfl)
    · exact .inl hm
    · exact .inl hq
    · exact .inl hq
    · exact .inr rfl
  · rintro (hm | rfl)
    · exact .inl (.inl hm)
    · exact .inr (.inr rfl)

/-- A path leads through the places of all that stand above it. -/
theorem place_mem_trail_of_mem_ancestors {n : Nat} (h : q ∈ p.ancestorsWithin n) :
    t.place q ∈ t.trail p := by
  induction n generalizing p with
  | zero => cases h
  | succ n ih =>
    rw [Path.ancestorsWithin, List.mem_cons] at h
    rcases h with rfl | h
    · exact place_mem_trail t q
    · cases hparent : p.parent? with
      | none =>
        rw [hparent] at h
        cases h
      | some above =>
        rw [hparent] at h
        exact (liesIn_of_parent hparent).mem_trail.2 (.inl (ih h))

/-! ## Trees that are alike along a path -/

/-- Names lead to the same place where the trees are alike on the way. -/
theorem follow_congr (h : ∀ m ∈ trailFrom l names, t'.entry? m = t.entry? m) :
    t'.follow l names = t.follow l names := by
  induction names generalizing l with
  | nil => rfl
  | cons name names ih =>
    have hrest := ih fun m hm => h m (List.mem_cons_of_mem l hm)
    rw [follow, follow, h l List.mem_cons_self, hrest]

/-- What stays in a folder leads to it, if it is one. -/
theorem follow_stay_eq_ok : t.follow l ["."] = .ok m ↔ m = l ∧ t.entry? l = some .folder := by
  have hshort : ¬ nameLimit < ".".utf8ByteSize := by decide
  cases hentry : t.entry? l with
  | none => simp [follow, hentry]
  | some entry =>
    cases entry with
    | file content => simp [follow, hentry]
    | folder => simp [follow, hentry, hshort, step_stay, eq_comm]

/-- What leads into a folder leads through folders. -/
theorem folder_of_follow (h : t.follow l (names ++ ["."]) = .ok m) {m' : Location}
    (hm' : m' ∈ trailFrom l names) : t.entry? m' = some .folder := by
  induction names generalizing l with
  | nil =>
    obtain ⟨rfl, hl⟩ := follow_stay_eq_ok.1 h
    rwa [List.mem_singleton.1 hm']
  | cons name names ih =>
    rw [List.cons_append, follow] at h
    split at h
    · cases h
    · cases h
    · rename_i hl
      split at h
      · cases h
      · rcases List.mem_cons.1 hm' with rfl | hm'
        · exact hl
        · exact ih h hm'

/-- Two trees are alike along a path: it starts from the same folder, and the same is at the
places that it leads through. -/
structure Alike (t t' : FileTree) (p : Path) : Prop where
  here : t'.here = t.here
  entries : ∀ l ∈ t.trail p, t'.entry? l = t.entry? l

namespace Alike

variable (h : Alike t t' p)
include h

theorem place : t'.place p = t.place p := place_congr h.here p

theorem start : t'.start p = t.start p := by rw [FileTree.start, FileTree.start, h.here]

theorem follow (hnames : ∀ m ∈ trailFrom (t.origin p) names, m ∈ t.trail p) :
    t'.follow (t.origin p) names = t.follow (t.origin p) names :=
  follow_congr fun m hm => h.entries m (hnames m hm)

/-- Something new has the same spot. -/
theorem spot : t'.spot p = t.spot p := by
  rw [FileTree.spot, FileTree.spot, h.start]
  refine bind_congr_ok fun from' hstart => ?_
  obtain ⟨-, rfl⟩ := start_eq_ok hstart
  have hnames : ∀ m ∈ trailFrom (t.origin p) ((namesOf p).dropLast ++ ["."]), m ∈ t.trail p := by
    intro m hm
    have hfirst : m ∈ trailFrom (t.origin p) (namesOf p).dropLast := by
      rcases mem_trailFrom_append.1 hm with hm | hm
      · exact hm
      · rw [(mem_trailFrom_idle (by simp [Idle])).1 hm]
        exact mem_trailFrom_last
    rcases List.eq_nil_or_concat (namesOf p) with hnone | ⟨before, last, hlast⟩
    · rw [trail, hnone]
      rwa [hnone] at hfirst
    · rw [trail, hlast]
      rw [hlast, List.concat_eq_append, List.dropLast_concat] at hfirst
      rw [List.concat_eq_append]
      exact mem_trailFrom_append.2 (.inl hfirst)
  simp only [h.follow hnames]

end Alike

/-! ## Targets -/

/-- The place that content is written to at a path. -/
def target (t : FileTree) (p : Path) : Except DiskFault Location := do
  match ← t.spot p with
  | (_, none) => .error .isFolder
  | (folder, some name) =>
    if endsOpen p then .error .isFolder
    else
      match ← t.slot folder name with
      | (_, some .folder) => .error .isFolder
      | (location, _) => return location

/-- Writing is to put content at the target. -/
theorem write_eq (t : FileTree) (p : Path) (content : Bytes) :
    t.write p content = (t.target p).map fun l => t.insert l (.file content) := by
  rw [write, target]
  cases t.spot p with
  | error fault => rfl
  | ok found =>
    obtain ⟨folder, _ | name⟩ := found
    · rfl
    · simp only [bind, Except.bind]
      split
      · rfl
      · cases t.slot folder name with
        | error fault => rfl
        | ok slot => obtain ⟨l, _ | _ | content⟩ := slot <;> rfl

theorem Alike.target (h : Alike t t' p) : t'.target p = t.target p := by
  rw [FileTree.target, FileTree.target, h.spot]
  refine bind_congr_ok fun found hspot => ?_
  obtain ⟨folder, _ | name⟩ := found
  · rfl
  · obtain ⟨-, -, hsplit, hdot, hdots, hfolder, hplace⟩ := spot_eq_ok hspot
    have hnames : t.trail p = trailFrom (t.origin p) ((namesOf p).dropLast ++ [name]) := by
      rw [← hsplit]
      rfl
    have hslot : t'.slot folder name = t.slot folder name := by
      have hsub : ∀ m ∈ trailFrom folder [name], m ∈ t.trail p := by
        intro m hm
        rw [hnames, mem_trailFrom_append, ← follow_eq_ok hfolder]
        exact .inr hm
      rw [slot, slot, follow_congr fun m hm => h.entries m (hsub m hm)]
      refine bind_congr_ok fun l hl => ?_
      rw [h.entries l (hsub l (by rw [follow_eq_ok hl]; exact mem_trailFrom_last))]
    simp only [hslot]

end MapDocument.FileTree
