import MapDocument.Disk.FileTree
import MapDocument.Proofs.Disk.Path
import MapDocument.Proofs.Outcome
/-!
# Disk — what the operations on a tree of files do

Every path is of a place, which is found without a look at the files. An
operation that succeeds changes the tree at the place of its path and nowhere
else; what was written is then there to be read, and to be taken away again.
-/

namespace MapDocument.FileTree

variable {t t' : FileTree} {p q : Path} {l l' : Location}

/-! ## Entries -/

/-- The content of the file at a place, if there is one. -/
def file? (t : FileTree) (l : Location) : Option Bytes :=
  match t.entry? l with
  | some (.file content) => some content
  | _ => none

theorem file?_congr (h : t'.entry? l = t.entry? l) : t'.file? l = t.file? l := by
  rw [file?, file?, h]

theorem file?_eq_some {content : Bytes} :
    t.file? l = some content ↔ t.entry? l = some (.file content) := by
  unfold file?
  split
  · rename_i content' hentry
    rw [hentry, Option.some.injEq, Option.some.injEq, Entry.file.injEq]
  · rename_i hnone
    exact ⟨nofun, fun h => absurd h (hnone content)⟩

/-- Entries elsewhere are found whether or not those at a place are left out. -/
theorem lookup_filter_ne {entries : List (Location × Entry)} (h : l' ≠ l) :
    (entries.filter (·.1 ≠ l)).lookup l' = entries.lookup l' := by
  induction entries with
  | nil => rfl
  | cons e entries ih =>
    obtain ⟨m, entry⟩ := e
    by_cases hm : m = l
    · subst hm
      rw [List.filter_cons_of_neg (by simp), ih, List.lookup_cons, beq_false_of_ne h]
    · rw [List.filter_cons_of_pos (by simpa using hm), List.lookup_cons, List.lookup_cons, ih]

/-- And at the place itself nothing is left. -/
theorem lookup_filter_self {entries : List (Location × Entry)} :
    (entries.filter (·.1 ≠ l)).lookup l = none := by
  induction entries with
  | nil => rfl
  | cons e entries ih =>
    obtain ⟨m, entry⟩ := e
    by_cases hm : m = l
    · rw [List.filter_cons_of_neg (by simp [hm]), ih]
    · rw [List.filter_cons_of_pos (by simpa using hm), List.lookup_cons,
        beq_false_of_ne (Ne.symm hm), ih]

theorem entry?_insert_self (h : l ≠ []) (entry : Entry) :
    entry? (t.insert l entry) l = some entry := by
  simp [insert, entry?, h]

theorem entry?_insert_of_ne (h : l' ≠ l) (entry : Entry) :
    entry? (t.insert l entry) l' = t.entry? l' := by
  simp only [insert, entry?, List.lookup_cons, beq_false_of_ne h, lookup_filter_ne h]

theorem entry?_erase_self (h : l ≠ []) : entry? (t.erase l) l = none := by
  simp only [erase, entry?, if_neg h, lookup_filter_self]

theorem entry?_erase_of_ne (h : l' ≠ l) : entry? (t.erase l) l' = t.entry? l' := by
  simp only [erase, entry?, lookup_filter_ne h]

/-! ## Places of paths -/

/-- Where a path starts from. -/
def origin (t : FileTree) (p : Path) : Location :=
  if p.text.toList.head? = some '/' then [] else t.here

/-- The place that a path is of, whether or not it can be followed. -/
def place (t : FileTree) (p : Path) : Location := (namesOf p).foldl step (t.origin p)

/-- Paths are of the same places in trees that they start from in the same folder. -/
theorem place_congr (h : t'.here = t.here) (p : Path) : t'.place p = t.place p := by
  rw [place, place, origin, origin, h]

/-- The names of a text, as those of a path. -/
def namesIn (text : List Char) : List String :=
  ((text.splitOnP (· = '/')).filter (· ≠ [])).map String.ofList

theorem namesIn_append_slash (front name : List Char) :
    namesIn (front ++ '/' :: name) = namesIn front ++ namesIn name := by
  rw [namesIn, List.splitOnP_append_cons _ _ (by decide), List.filter_append, List.map_append]
  rfl

/-- A text without a `/` is a single name. -/
theorem namesIn_of_not_mem {name : List Char} (h : '/' ∉ name) (hne : name ≠ []) :
    namesIn name = [String.ofList name] := by
  have hall : ∀ c ∈ name, decide (c = '/') = false := by
    intro c hc
    refine decide_eq_false fun heq => h ?_
    rw [← heq]
    exact hc
  rw [namesIn, List.splitOnP_eq_singleton hall, List.filter_cons_of_pos (by simpa using hne)]
  rfl

/-- The last name of a text is the last of its names, unless it is empty. -/
theorem exists_namesIn {r : List Char} (h : Path.lastName r ≠ []) :
    ∃ before, namesIn r.reverse = before ++ [String.ofList (Path.lastName r)] := by
  have hname := namesIn_of_not_mem (Path.not_mem_lastName r) h
  have hsplit := congrArg List.reverse (Path.lastName_append_dropWhile r)
  rw [List.reverse_append, List.reverse_reverse] at hsplit
  rcases Path.front_dropWhile r with hrest | ⟨more, hrest⟩
  · rw [hrest] at hsplit
    exact ⟨[], by rw [hsplit]; exact hname⟩
  · rw [hrest, List.reverse_cons, List.append_assoc] at hsplit
    refine ⟨namesIn more.reverse, ?_⟩
    rw [hsplit, ← hname]
    exact namesIn_append_slash _ _

/-- The name `.` leads nowhere. -/
theorem step_stay (l : Location) : step l "." = l := if_pos rfl

/-- What counts for nothing at the end of a text leads nowhere. -/
theorem foldl_namesIn_dropIdle (r : List Char) (start : Location) :
    (namesIn (Path.dropIdle r).reverse).foldl step start = (namesIn r.reverse).foldl step start := by
  fun_induction Path.dropIdle r with
  | case1 rest ih =>
    have hnames : namesIn ('/' :: rest).reverse = namesIn rest.reverse ++ [] := by
      rw [List.reverse_cons]
      exact namesIn_append_slash rest.reverse []
    rw [ih, hnames, List.append_nil]
  | case2 rest ih =>
    have hnames : namesIn ('.' :: '/' :: rest).reverse = namesIn rest.reverse ++ ["."] := by
      rw [List.reverse_cons, List.reverse_cons, List.append_assoc]
      exact namesIn_append_slash rest.reverse ['.']
    rw [ih, hnames, List.foldl_append]
    exact (step_stay _).symm
  | case3 => exact (step_stay start).symm
  | case4 => rfl

/-- A proper name leads into the folder that it is looked up in. -/
theorem step_of_names {name : List Char} (h : Path.Names name) (l : Location) :
    step l (String.ofList name) = l ++ [String.ofList name] := by
  have hne {other : List Char} (hother : name ≠ other) :
      String.ofList name ≠ String.ofList other :=
    fun heq => hother (String.ofList_injective heq)
  rw [step, if_neg (hne h.2.1), if_neg (hne h.2.2)]

/-- **A path with a name is of a place of that name.** -/
theorem exists_place {name : List Char} (h : p.name? = some name) :
    ∃ folder, t.place p = folder ++ [String.ofList name] := by
  obtain ⟨hlast, hnames, -⟩ := Path.lastName_of_name? h
  have hplace : t.place p = (namesIn (Path.dropIdle p.reversed).reverse).foldl step (t.origin p) := by
    rw [foldl_namesIn_dropIdle, Path.reversed, List.reverse_reverse]
    rfl
  obtain ⟨before, hbefore⟩ := exists_namesIn (r := Path.dropIdle p.reversed) (by
    rw [hlast]
    exact hnames.1)
  rw [hplace, hbefore, List.foldl_append, hlast]
  exact ⟨_, step_of_names hnames _⟩

/-! ## Following paths -/

/-- Names that can be followed lead to the place that they are of. -/
theorem follow_eq_ok {names : List String} (h : t.follow l names = .ok l') :
    l' = names.foldl step l := by
  induction names generalizing l with
  | nil =>
    cases h
    rfl
  | cons name names ih =>
    unfold follow at h
    split at h
    · cases h
    · cases h
    · split at h
      · cases h
      · exact ih h

/-- Names are followed one after the other. -/
theorem follow_append {names others : List String} :
    t.follow l (names ++ others) = t.follow l names >>= fun m => t.follow m others := by
  induction names generalizing l with
  | nil => rfl
  | cons name names ih =>
    simp only [List.cons_append, follow]
    split
    · rfl
    · rfl
    · split
      · rfl
      · exact ih

/-- They lead to the same place where no folder has gone. -/
theorem follow_mono (hkept : ∀ m, t.entry? m = some .folder → t'.entry? m = some .folder)
    {names : List String} (h : t.follow l names = .ok l') : t'.follow l names = .ok l' := by
  induction names generalizing l with
  | nil => exact h
  | cons name names ih =>
    unfold follow at h ⊢
    cases hentry : t.entry? l with
    | none =>
      rw [hentry] at h
      cases h
    | some entry =>
      rw [hentry] at h
      cases entry with
      | file content => cases h
      | folder =>
        rw [hkept l hentry]
        simp only at h ⊢
        split
        · rename_i hlong
          rw [if_pos hlong] at h
          cases h
        · rename_i hlong
          rw [if_neg hlong] at h
          exact ih h

/-- A path that can be followed all the way. -/
def Reaches (t : FileTree) (p : Path) : Prop :=
  t.start p = .ok (t.origin p, namesOf p) ∧ t.follow (t.origin p) (namesOf p) = .ok (t.place p)

/-- It can be followed still where no folder has gone. -/
theorem Reaches.mono (h : t.Reaches p) (hhere : t'.here = t.here)
    (hkept : ∀ m, t.entry? m = some .folder → t'.entry? m = some .folder) : t'.Reaches p := by
  obtain ⟨hstart, hfollow⟩ := h
  have horigin : t'.origin p = t.origin p := by rw [origin, origin, hhere]
  refine ⟨?_, ?_⟩
  · rw [horigin, ← hstart, start, start, hhere]
  · rw [horigin, place_congr hhere]
    exact follow_mono hkept hfollow

/-- What a path starts from, if it is one. -/
theorem start_eq_ok {from' : Location × List String} (h : t.start p = .ok from') :
    p.text.isEmpty = false ∧ from' = (t.origin p, namesOf p) := by
  unfold start at h
  split at h
  · cases h
  · split at h
    · cases h
    · rename_i hempty
      split at h
      · cases h
      · cases h
        exact ⟨by simpa using hempty, rfl⟩

/-- What is found at a path is at its place; and if it is a file, the path reaches it. -/
theorem find_eq_ok {entry : Entry} (h : t.find p = .ok (l, entry)) :
    l = t.place p ∧ t.entry? l = some entry := by
  obtain ⟨from', hstart, h⟩ := bind_eq_ok.1 h
  obtain ⟨-, rfl⟩ := start_eq_ok hstart
  obtain ⟨m, hfollow, h⟩ := bind_eq_ok.1 h
  have hplace : m = t.place p := by
    rw [follow_eq_ok hfollow]
    split
    · rw [List.foldl_append]
      exact step_stay _
    · rfl
  cases hentry : t.entry? m with
  | none =>
    rw [hentry] at h
    cases h
  | some found =>
    rw [hentry] at h
    cases h
    exact ⟨hplace, hentry⟩

/-- The spot of something new at a path is its place. -/
theorem spot_eq_ok {name : String} (h : t.spot p = .ok (l, some name)) :
    p.text.isEmpty = false ∧ t.start p = .ok (t.origin p, namesOf p) ∧
      namesOf p = (namesOf p).dropLast ++ [name] ∧ name ≠ "." ∧ name ≠ ".." ∧
      t.follow (t.origin p) (namesOf p).dropLast = .ok l ∧ t.place p = l ++ [name] := by
  obtain ⟨from', hstart, h⟩ := bind_eq_ok.1 h
  obtain ⟨hempty, rfl⟩ := start_eq_ok hstart
  obtain ⟨m, hfollow, h⟩ := bind_eq_ok.1 h
  obtain ⟨rfl, hlast⟩ := Prod.mk.inj (Except.ok.inj h)
  obtain ⟨hlast, hnames⟩ := Option.filter_eq_some_iff.1 hlast
  simp only [Bool.and_eq_true, decide_eq_true_eq] at hnames
  obtain ⟨before, hbefore⟩ := List.getLast?_eq_some_iff.1 hlast
  have hsplit : namesOf p = (namesOf p).dropLast ++ [name] := by
    rw [hbefore, List.dropLast_concat]
  -- the name that is looked up behind the folder stays in it
  rw [follow_append] at hfollow
  obtain ⟨folder, hfolder, hstay⟩ := bind_eq_ok.1 hfollow
  have hsame : m = folder := (follow_eq_ok hstay).trans (step_stay folder)
  rw [← hsame] at hfolder
  refine ⟨hempty, hstart, hsplit, hnames.1, hnames.2, hfolder, ?_⟩
  rw [place, hsplit, List.foldl_append, ← follow_eq_ok hfolder, List.foldl_cons, List.foldl_nil,
    step, if_neg hnames.1, if_neg hnames.2]

/-- A path whose spot has a slot is reached, and the slot is its place. -/
theorem slot_eq_ok {name : String} {folder : Location} {found : Option Entry}
    (hspot : t.spot p = .ok (folder, some name)) (h : t.slot folder name = .ok (l, found)) :
    t.Reaches p ∧ l = t.place p ∧ found = t.entry? l := by
  obtain ⟨-, hstart, hsplit, hdot, hdots, hfolder, hplace⟩ := spot_eq_ok hspot
  obtain ⟨_, hname, h⟩ := bind_eq_ok.1 h
  cases h
  have hlast : l = t.place p := by
    rw [follow_eq_ok hname, hplace, List.foldl_cons, List.foldl_nil, step, if_neg hdot,
      if_neg hdots]
  refine ⟨⟨hstart, ?_⟩, hlast, rfl⟩
  rw [hsplit, follow_append, ← hlast]
  exact bind_eq_ok.2 ⟨folder, hfolder, hname⟩

/-! ## Operations -/

/-- A path that does not end in `/` and is not empty ends in a name. -/
theorem lastName_ne_nil (hempty : p.text.isEmpty = false) (hopen : endsOpen p = false) :
    Path.lastName p.reversed ≠ [] := by
  intro hname
  have hsplit := Path.lastName_append_dropWhile p.reversed
  rw [hname] at hsplit
  rcases Path.front_dropWhile p.reversed with hrest | ⟨more, hrest⟩
  · rw [hrest] at hsplit
    have htext : p.text.toList = [] := List.reverse_eq_nil_iff.1 hsplit
    rw [String.toList_eq_nil_iff] at htext
    rw [htext] at hempty
    cases hempty
  · rw [hrest] at hsplit
    have htext : p.text.toList = more.reverse ++ ['/'] := by
      rw [← List.reverse_reverse p.text.toList]
      exact (congrArg List.reverse hsplit).trans (List.reverse_cons ..)
    rw [endsOpen, htext, List.getLast?_concat] at hopen
    simp at hopen

/-- A tree with new content at a path: the path is reached, ends in a name that a file can
have, and there was no folder at its place. -/
theorem write_eq_ok {content : Bytes} (h : t.write p content = .ok t') :
    t' = t.insert (t.place p) (.file content) ∧ t.Reaches p ∧ endsOpen p = false ∧
      Path.Names (Path.lastName p.reversed) ∧ t.entry? (t.place p) ≠ some .folder := by
  obtain ⟨⟨folder, last?⟩, hspot, h⟩ := bind_eq_ok.1 h
  cases last? with
  | none => cases h
  | some name =>
    simp only at h
    split at h
    · cases h
    · rename_i hopen
      obtain ⟨⟨l, found⟩, hslot, h⟩ := bind_eq_ok.1 h
      obtain ⟨hreaches, hplace, hentry⟩ := slot_eq_ok hspot hslot
      obtain ⟨hempty, -, hsplit, hdot, hdots, -, -⟩ := spot_eq_ok hspot
      have hopen : endsOpen p = false := by simpa using hopen
      have hne := lastName_ne_nil hempty hopen
      -- the last of the names is the name that the path ends in
      have hname : name = String.ofList (Path.lastName p.reversed) := by
        obtain ⟨before, hbefore⟩ := exists_namesIn hne
        have hnames : namesOf p = before ++ [String.ofList (Path.lastName p.reversed)] := by
          rw [← hbefore, Path.reversed, List.reverse_reverse]
          rfl
        have hlast := congrArg List.getLast? (hsplit.symm.trans hnames)
        rw [List.getLast?_concat, List.getLast?_concat] at hlast
        exact Option.some.inj hlast
      have hnames : Path.Names (Path.lastName p.reversed) := by
        refine ⟨hne, fun heq => hdot ?_, fun heq => hdots ?_⟩
        · rw [hname, heq]
        · rw [hname, heq]
      rw [← hplace, ← hentry]
      rcases found with _ | _ | old
      · cases h
        exact ⟨rfl, hreaches, hopen, hnames, by simp⟩
      · cases h
      · cases h
        exact ⟨rfl, hreaches, hopen, hnames, by simp⟩

/-- The place of a path that can be written to is of the name that the path ends in. -/
theorem exists_place_of_write {content : Bytes} (h : t.write p content = .ok t') :
    ∃ folder, t.place p = folder ++ [String.ofList (Path.lastName p.reversed)] := by
  obtain ⟨-, -, -, hnames, -⟩ := write_eq_ok h
  exact exists_place (Path.name?_of_names hnames)

/-- So it is not the root. -/
theorem place_ne_nil_of_write {content : Bytes} (h : t.write p content = .ok t') :
    t.place p ≠ [] := by
  obtain ⟨folder, hplace⟩ := exists_place_of_write h
  rw [hplace]
  simp

/-- A tree with a new folder at a path: there was nothing at its place. -/
theorem makeFolder_eq_ok (h : t.makeFolder p = .ok t') :
    t' = t.insert (t.place p) .folder ∧ t.place p ≠ [] ∧ t.entry? (t.place p) = none := by
  obtain ⟨⟨folder, last?⟩, hspot, h⟩ := bind_eq_ok.1 h
  cases last? with
  | none => cases h
  | some name =>
    obtain ⟨⟨l, found⟩, hslot, h⟩ := bind_eq_ok.1 h
    obtain ⟨-, hplace, hentry⟩ := slot_eq_ok hspot hslot
    obtain ⟨-, -, -, -, -, -, hlast⟩ := spot_eq_ok hspot
    cases found with
    | some entry => cases h
    | none =>
      cases h
      refine ⟨by rw [hplace], by simp [hlast], ?_⟩
      rw [← hplace, ← hentry]

/-- A tree without the file at a path: there was one at its place. -/
theorem remove_eq_ok (h : t.remove p = .ok t') :
    t' = t.erase (t.place p) ∧ ∃ content, t.entry? (t.place p) = some (.file content) := by
  obtain ⟨⟨l, entry⟩, hfind, h⟩ := bind_eq_ok.1 h
  obtain ⟨rfl, hentry⟩ := find_eq_ok hfind
  cases entry with
  | folder => cases h
  | file content =>
    cases h
    exact ⟨rfl, content, hentry⟩

/-- A file at the place of a path that is reached is found there. -/
theorem find_of_reaches {content : Bytes} (h : t.Reaches p) (hopen : endsOpen p = false)
    (hentry : t.entry? (t.place p) = some (.file content)) :
    t.find p = .ok (t.place p, .file content) := by
  obtain ⟨hstart, hfollow⟩ := h
  refine bind_eq_ok.2 ⟨_, hstart, bind_eq_ok.2 ⟨t.place p, ?_, ?_⟩⟩
  · simpa [hopen] using hfollow
  · rw [hentry]
    rfl

/-- It can be read. -/
theorem read_of_reaches {content : Bytes} (h : t.Reaches p) (hopen : endsOpen p = false)
    (hentry : t.entry? (t.place p) = some (.file content)) : t.read p = .ok content :=
  bind_eq_ok.2 ⟨_, find_of_reaches h hopen hentry, rfl⟩

/-- Nothing else can be. -/
theorem read_eq_ok {content : Bytes} :
    t.read p = .ok content ↔
      t.Reaches p ∧ endsOpen p = false ∧ t.entry? (t.place p) = some (.file content) := by
  refine ⟨fun h => ?_, fun h => read_of_reaches h.1 h.2.1 h.2.2⟩
  obtain ⟨⟨l, entry⟩, hfind, h⟩ := bind_eq_ok.1 h
  cases entry with
  | folder => cases h
  | file found =>
    cases h
    obtain ⟨rfl, hentry⟩ := find_eq_ok hfind
    obtain ⟨from', hstart, hfind⟩ := bind_eq_ok.1 hfind
    obtain ⟨-, rfl⟩ := start_eq_ok hstart
    obtain ⟨m, hfollow, -⟩ := bind_eq_ok.1 hfind
    cases hopen : endsOpen p with
    | false =>
      rw [hopen] at hfollow
      have hplace : m = t.place p := follow_eq_ok hfollow
      rw [hplace] at hfollow
      exact ⟨⟨hstart, hfollow⟩, rfl, hentry⟩
    | true =>
      -- then a folder would have to be there
      rw [hopen] at hfollow
      simp only [if_true, follow_append] at hfollow
      obtain ⟨m', hnames, hstay⟩ := bind_eq_ok.1 hfollow
      have hplace : m' = t.place p := follow_eq_ok hnames
      rw [hplace, follow, hentry] at hstay
      cases hstay

/-- It can be taken away. -/
theorem remove_of_reaches {content : Bytes} (h : t.Reaches p) (hopen : endsOpen p = false)
    (hentry : t.entry? (t.place p) = some (.file content)) :
    t.remove p = .ok (t.erase (t.place p)) :=
  bind_eq_ok.2 ⟨_, find_of_reaches h hopen hentry, rfl⟩

/-! ## One operation after the other -/

section Written

variable {t'' : FileTree} {content other : Bytes}

/-- Writing changes nothing but the file at the path. -/
theorem entry?_of_write (h : t.write p content = .ok t') (hl : l ≠ t.place p) :
    t'.entry? l = t.entry? l := by
  obtain ⟨rfl, -⟩ := write_eq_ok h
  exact entry?_insert_of_ne hl _

/-- Nor where paths start from. -/
theorem here_of_write (h : t.write p content = .ok t') : t'.here = t.here := by
  obtain ⟨rfl, -⟩ := write_eq_ok h
  rfl

/-- Taking a file away changes nothing but that file, -/
theorem entry?_of_remove (h : t.remove p = .ok t') (hl : l ≠ t.place p) :
    t'.entry? l = t.entry? l := by
  obtain ⟨rfl, -⟩ := remove_eq_ok h
  exact entry?_erase_of_ne hl

/-- of which nothing is left. -/
theorem file?_of_remove (h : t.remove p = .ok t') : t'.file? (t.place p) = none := by
  obtain ⟨rfl, content, hentry⟩ := remove_eq_ok h
  have hroot : t.place p ≠ [] := by
    intro hroot
    rw [hroot] at hentry
    cases hentry
  rw [file?, entry?_erase_self hroot]

/-- Folders stay where something is written. -/
theorem folder_of_write (h : t.write p content = .ok t') (l : Location)
    (hl : t.entry? l = some .folder) : t'.entry? l = some .folder := by
  obtain ⟨-, -, -, -, hfolder⟩ := write_eq_ok h
  have hne : l ≠ t.place p := by
    rintro rfl
    exact hfolder hl
  rwa [entry?_of_write h hne]

/-- **What was written is there**: it can be read at its path, and taken away. -/
theorem reaches_of_write (h : t.write p content = .ok t') :
    t'.Reaches p ∧ endsOpen p = false ∧ t'.place p = t.place p ∧
      t'.entry? (t'.place p) = some (.file content) := by
  obtain ⟨heq, hreaches, hopen, -, -⟩ := write_eq_ok h
  have hhere := here_of_write h
  refine ⟨hreaches.mono hhere (folder_of_write h), hopen, place_congr hhere p, ?_⟩
  rw [place_congr hhere p, heq]
  exact entry?_insert_self (place_ne_nil_of_write h) _

theorem read_of_write (h : t.write p content = .ok t') : t'.read p = .ok content := by
  obtain ⟨hreaches, hopen, -, hentry⟩ := reaches_of_write h
  exact read_of_reaches hreaches hopen hentry

theorem remove_of_write (h : t.write p content = .ok t') :
    t'.remove p = .ok (t'.erase (t'.place p)) := by
  obtain ⟨hreaches, hopen, -, hentry⟩ := reaches_of_write h
  exact remove_of_reaches hreaches hopen hentry

/-- **It is still there after something else was written**, at another place. -/
theorem read_of_write_write (h : t.write p content = .ok t') (h' : t'.write q other = .ok t'')
    (hne : t.place p ≠ t.place q) : t''.read p = .ok content := by
  obtain ⟨hreaches, hopen, hplace, hentry⟩ := reaches_of_write h
  have hhere := here_of_write h'
  have hplaces : t'.place p ≠ t'.place q := by
    rw [hplace, place_congr (here_of_write h) q]
    exact hne
  refine read_of_reaches (hreaches.mono hhere (folder_of_write h')) hopen ?_
  rw [place_congr hhere p, entry?_of_write h' hplaces]
  exact hentry

end Written

/-- **Another extension with a point in it makes another place**, where a file can be there. -/
theorem place_withExtension_ne {extension : String} {content : Bytes}
    (hslash : '/' ∉ extension.toList) (hpoint : '.' ∈ extension.toList)
    (h : t.write (p.withExtension extension) content = .ok t') :
    t.place p ≠ t.place (p.withExtension extension) := by
  obtain ⟨-, -, -, hnames, -⟩ := write_eq_ok h
  obtain ⟨name, hname, hne⟩ := Path.lastName_withExtension_ne hslash hpoint hnames
  obtain ⟨folder, hplace⟩ := exists_place (t := t) hname
  obtain ⟨folder', hplace'⟩ := exists_place_of_write h
  intro heq
  rw [hplace, hplace'] at heq
  have hlast := congrArg List.getLast? heq
  rw [List.getLast?_concat, List.getLast?_concat] at hlast
  exact hne (String.ofList_injective (Option.some.inj hlast))

end MapDocument.FileTree
