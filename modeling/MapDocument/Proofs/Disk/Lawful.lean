import MapDocument.Proofs.Disk.FileTree
/-!
# Disk — disks that hold a tree of files

A disk holds a tree of files if each operation either does to the tree what it
does to one that is a value, or fails and leaves it as it is. It may fail where
it would not have to, for want of room or of a permission; only a file that was
just written has to let itself be taken away again.

As a tree has no links, neither symbolic nor hard ones, a disk that holds one has none
either. What is said of whole files and of whole runs rests on this: two paths are about
one file when they have one place, and only then.
-/

namespace MapDocument

open FileTree (place)

/-- What a change of a tree comes to: it is made, or fails and changes nothing. -/
def Attempted (change : FileTree → Except DiskFault FileTree) (before : FileTree)
    (answer : Except DiskFault Unit) (after : FileTree) : Prop :=
  answer = .ok () ∧ change before = .ok after ∨ (∃ fault, answer = .error fault) ∧ after = before

namespace Disk

section Operations

variable {σ : Type} [Disk (StateM σ)]

/-- What reading a file comes to, and the disk after it. -/
def reads (path : Path) (s : σ) : Except DiskFault Bytes × σ := read (m := StateM σ) path s

/-- What writing a file comes to. -/
def writes (path : Path) (content : Bytes) (s : σ) : Except DiskFault Unit × σ :=
  write (m := StateM σ) path content s

/-- What taking a file away comes to. -/
def removes (path : Path) (s : σ) : Except DiskFault Unit × σ := remove (m := StateM σ) path s

/-- What making a folder comes to. -/
def makes (path : Path) (s : σ) : Except DiskFault Unit × σ := makeFolder (m := StateM σ) path s

/-- What looking for a folder comes to. -/
def looks (path : Path) (s : σ) : Bool × σ := isFolder (m := StateM σ) path s

/-- The disk holds the tree that `tree` finds in its state. -/
structure Holds (tree : σ → FileTree) : Prop where
  /-- What can be read is what the tree has there, and reading changes nothing. -/
  read : ∀ path s, tree (reads path s).2 = tree s ∧
    ∀ content, (reads path s).1 = .ok content → (tree s).read path = .ok content
  /-- Looking changes nothing. -/
  isFolder : ∀ path s, tree (looks path s).2 = tree s
  /-- A file is replaced, or stays as it is. -/
  write : ∀ path content s,
    Attempted (·.write path content) (tree s) (writes path content s).1 (tree (writes path content s).2)
  /-- A folder is made where there is nothing, or not. -/
  makeFolder : ∀ path s,
    Attempted (·.makeFolder path) (tree s) (makes path s).1 (tree (makes path s).2)
  /-- A file is taken away, or stays as it is. -/
  remove : ∀ path s, Attempted (·.remove path) (tree s) (removes path s).1 (tree (removes path s).2)
  /-- A file that was just written can be taken away. -/
  remove_written : ∀ path content s s', (writes path content s).1 = .ok () →
    tree s' = tree (writes path content s).2 → (removes path s').1 = .ok ()

end Operations

/-- What a change of a tree that is a value comes to. -/
theorem attempt_eq (change : FileTree → Except DiskFault FileTree) (t : FileTree) :
    FileTree.attempt change t = match change t with
      | .ok t' => (.ok (), t')
      | .error fault => (.error fault, t) := by
  have hrun : FileTree.attempt change t = (match change t with
      | .ok t' => do
        set t'
        return .ok ()
      | .error fault => return .error fault : StateM FileTree (Except DiskFault Unit)) t := rfl
  rw [hrun]
  cases change t <;> rfl

theorem attempted_attempt (change : FileTree → Except DiskFault FileTree) (t : FileTree) :
    Attempted change t (FileTree.attempt change t).1 (FileTree.attempt change t).2 := by
  rw [attempt_eq]
  cases hchange : change t with
  | ok t' => exact .inl ⟨rfl, hchange⟩
  | error fault => exact .inr ⟨⟨fault, rfl⟩, rfl⟩

/-- **A tree that is a value is held by itself.** -/
theorem holds_fileTree : Holds (fun t : FileTree => t) where
  read path t := ⟨rfl, fun _ h => h⟩
  isFolder path t := rfl
  write path content t := attempted_attempt _ t
  makeFolder path t := attempted_attempt _ t
  remove path t := attempted_attempt _ t
  remove_written path content t t' hok heq := by
    rcases attempted_attempt (·.write path content) t with ⟨-, hwrite⟩ | ⟨⟨fault, hfault⟩, -⟩
    · have heq' : t' = (FileTree.attempt (·.write path content) t).2 := heq
      have hdone : removes path t' = FileTree.attempt (·.remove path) t' := rfl
      rw [hdone, attempt_eq, heq', FileTree.remove_of_write hwrite]
    · cases hfault.symm.trans hok

/-! ## Folders above a file -/

/-- Folders were made at some places where there was nothing, and nothing else was done. -/
structure Made (places : List Location) (t t' : FileTree) : Prop where
  here : t'.here = t.here
  entries : ∀ l, t'.entry? l = t.entry? l ∨
    l ∈ places ∧ t.entry? l = none ∧ t'.entry? l = some .folder

namespace Made

variable {places : List Location} {t t' t'' : FileTree} {l : Location}

theorem refl (places : List Location) (t : FileTree) : Made places t t := ⟨rfl, fun _ => .inl rfl⟩

theorem trans (h : Made places t t') (h' : Made places t' t'') : Made places t t'' where
  here := h'.here.trans h.here
  entries l := by
    rcases h.entries l with hsame | ⟨hl, hnone, hfolder⟩
    · rcases h'.entries l with hsame' | ⟨hl, hnone, hfolder⟩
      · exact .inl (hsame'.trans hsame)
      · exact .inr ⟨hl, hsame ▸ hnone, hfolder⟩
    · rcases h'.entries l with hsame' | ⟨-, hnone', -⟩
      · exact .inr ⟨hl, hnone, hsame'.trans hfolder⟩
      · rw [hfolder] at hnone'
        cases hnone'

/-- No file was made, changed or taken away. -/
theorem file? (h : Made places t t') (l : Location) : t'.file? l = t.file? l := by
  rcases h.entries l with hsame | ⟨-, hnone, hfolder⟩
  · exact FileTree.file?_congr hsame
  · rw [FileTree.file?, FileTree.file?, hnone, hfolder]

end Made

/-- A step goes on from where the step before it left the disk. -/
theorem run_bind {σ α β : Type} (x : StateM σ α) (f : α → StateM σ β) (s : σ) :
    (x >>= f) s = f (x s).1 (x s).2 := rfl

section Folders

variable {σ : Type} [Disk (StateM σ)] {tree : σ → FileTree} {places : List Location}

/-- A folder is made at the place of its path, or was there, or is not made. -/
theorem Holds.made_ensureFolder (h : Holds tree) {path : Path} {s : σ}
    (hpath : (tree s).place path ∈ places) :
    Made places (tree s) (tree (ensureFolder (m := StateM σ) path s).2) := by
  have hmakes : Disk.makeFolder (m := StateM σ) path s = makes path s := rfl
  rw [ensureFolder, run_bind, hmakes]
  rcases h.makeFolder path s with ⟨hanswer, hmake⟩ | ⟨⟨fault, hanswer⟩, hsame⟩
  · rw [hanswer]
    obtain ⟨heq, hne, hnone⟩ := FileTree.makeFolder_eq_ok hmake
    have hmade : Made places (tree s) (tree (makes path s).2) := by
      rw [heq]
      refine ⟨rfl, fun l => ?_⟩
      by_cases hl : l = (tree s).place path
      · subst hl
        exact .inr ⟨hpath, hnone, FileTree.entry?_insert_self hne _⟩
      · exact .inl (FileTree.entry?_insert_of_ne hl _)
    exact hmade
  · rw [hanswer]
    have hlook : tree (looks path (makes path s).2).2 = tree s := (h.isFolder path _).trans hsame
    have hmade : Made places (tree s) (tree (looks path (makes path s).2).2) := by
      rw [hlook]
      exact Made.refl places _
    exact hmade

/-- **Folders are made at the places of their paths** and nowhere else. -/
theorem Holds.made_makeFolders (h : Holds tree) {paths : List Path} {s : σ}
    (hpaths : ∀ path ∈ paths, (tree s).place path ∈ places) :
    Made places (tree s) (tree (makeFolders (m := StateM σ) paths s).2) := by
  induction paths generalizing s with
  | nil => exact Made.refl places _
  | cons path above ih =>
    unfold makeFolders
    split
    · exact Made.refl places _
    · have hfirst := h.made_ensureFolder (hpaths path List.mem_cons_self)
      rw [run_bind]
      generalize ensureFolder (m := StateM σ) path s = first at hfirst ⊢
      obtain ⟨answer, s1⟩ := first
      have hplace (p : Path) : (tree s1).place p = (tree s).place p :=
        FileTree.place_congr hfirst.here p
      have habove := ih (s := s1) fun p hp => by
        rw [hplace]
        exact hpaths p (List.mem_cons_of_mem path hp)
      simp only
      split
      · rw [run_bind]
        generalize makeFolders (m := StateM σ) above s1 = second at habove ⊢
        obtain ⟨answer, s2⟩ := second
        have hpath : (tree s2).place path ∈ places := by
          rw [FileTree.place_congr habove.here, hplace]
          exact hpaths path List.mem_cons_self
        have hlast := h.made_ensureFolder hpath
        cases answer with
        | error fault => exact hfirst.trans habove
        | ok done => exact (hfirst.trans habove).trans hlast
      · exact hfirst

/-- The folders that are to be above a file. -/
def parents (path : Path) : List Path := (path.parent?.map Path.ancestors).getD []

/-- **The folders above a file are made where they are missing**, and nothing else is done. -/
theorem Holds.made_makeParents (h : Holds tree) (path : Path) (s : σ) :
    Made ((parents path).map (tree s).place) (tree s)
      (tree (makeParents (m := StateM σ) path s).2) := by
  unfold makeParents
  cases hparent : path.parent? with
  | none => exact Made.refl _ _
  | some parent =>
    refine h.made_makeFolders fun p hp => List.mem_map.2 ⟨p, ?_, rfl⟩
    rw [parents, hparent]
    exact hp

end Folders

end Disk

end MapDocument
