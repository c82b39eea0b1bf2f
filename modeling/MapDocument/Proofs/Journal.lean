import MapDocument.Journal
/-!
# Journals — errors are found and shown

A journal has an error when one of its notes is one, wherever in the tree it
stands. The written form shows every note from the threshold on, in the order
in which the tree holds them, so it shows all errors whatever the threshold.
-/

namespace MapDocument

namespace Severity

variable {s t u : Severity}

theorem le_refl (s : Severity) : s ≤ s := Nat.le_refl s.rank

theorem le_trans (h : s ≤ t) (h' : t ≤ u) : s ≤ u := Nat.le_trans h h'

theorem le_antisymm : s ≤ t → t ≤ s → s = t := by
  cases s <;> cases t <;> decide

/-- No threshold is above errors. -/
theorem le_error (s : Severity) : s ≤ error := by
  cases s <;> decide

/-- And none is below information. -/
theorem info_le (s : Severity) : info ≤ s := by
  cases s <;> decide

/-- The graver of two is one of them, and neither is graver. -/
theorem max_cases (s t : Severity) : max s t = s ∧ t ≤ s ∨ max s t = t ∧ s ≤ t := by
  cases s <;> cases t <;> decide

end Severity

namespace Journal

/-! ## Notes of the whole tree -/

mutual

/-- All notes of a journal, in the order in which they are written. -/
def allNotes : Journal → List Note
  | mk _ notes children => notes ++ allNotesOf children

/-- All notes of journals, one journal after the other. -/
def allNotesOf : List Journal → List Note
  | [] => []
  | child :: rest => allNotes child ++ allNotesOf rest

end

/-- Some note of the tree is an error. -/
def HoldsError (notes : List Note) : Prop := ∃ n ∈ notes, n.severity = .error

theorem holdsError_append {ns ms : List Note} :
    HoldsError (ns ++ ms) ↔ HoldsError ns ∨ HoldsError ms := by
  constructor
  · rintro ⟨n, hn, herror⟩
    rcases List.mem_append.1 hn with hn | hn
    · exact .inl ⟨n, hn, herror⟩
    · exact .inr ⟨n, hn, herror⟩
  · rintro (⟨n, hn, herror⟩ | ⟨n, hn, herror⟩)
    · exact ⟨n, List.mem_append_left ms hn, herror⟩
    · exact ⟨n, List.mem_append_right ns hn, herror⟩

/-- The gravest severity of notes, if there are any. -/
inductive Gravest : Option Severity → List Note → Prop
  | absent : Gravest none []
  | present {s : Severity} {notes : List Note} (attained : ∃ n ∈ notes, n.severity = s)
      (bound : ∀ n ∈ notes, n.severity ≤ s) : Gravest (some s) notes

namespace Gravest

variable {s t : Option Severity} {ns ms : List Note}

/-- A note by itself is the gravest. -/
theorem self (n : Note) : Gravest (some n.severity) [n] :=
  .present ⟨n, List.mem_cons_self, rfl⟩ fun _ hm => List.mem_singleton.1 hm ▸ Severity.le_refl _

/-- The graver of the gravest is the gravest of both. -/
theorem append (h : Gravest s ns) (h' : Gravest t ms) :
    Gravest (Severity.max? s t) (ns ++ ms) := by
  cases h with
  | absent => exact h'
  | @present s _ attained bound =>
    cases h' with
    | absent =>
      rw [List.append_nil]
      exact .present attained bound
    | @present t _ attained' bound' =>
      obtain ⟨n, hn, rfl⟩ := attained
      obtain ⟨m, hm, rfl⟩ := attained'
      have hmax : Severity.max? (some n.severity) (some m.severity) =
          some (Severity.max n.severity m.severity) := rfl
      rw [hmax]
      -- the one that is left is above the other, so above all that the other is above
      rcases Severity.max_cases n.severity m.severity with ⟨hmax, hle⟩ | ⟨hmax, hle⟩
      · rw [hmax]
        refine .present ⟨n, List.mem_append_left ms hn, rfl⟩ fun k hk => ?_
        exact (List.mem_append.1 hk).elim (bound k) fun hk => Severity.le_trans (bound' k hk) hle
      · rw [hmax]
        refine .present ⟨m, List.mem_append_right ns hm, rfl⟩ fun k hk => ?_
        exact (List.mem_append.1 hk).elim (fun hk => Severity.le_trans (bound k hk) hle) (bound' k)

/-- Notes may be added one after the other. -/
theorem foldl (h : Gravest s ns) (ms : List Note) :
    Gravest (ms.foldl (fun s n => Severity.max? s (some n.severity)) s) (ns ++ ms) := by
  induction ms generalizing s ns with
  | nil =>
    rw [List.append_nil]
    exact h
  | cons m ms ih =>
    have hgrown := ih (h.append (self m))
    rwa [List.append_assoc, List.singleton_append] at hgrown

/-- There is only one that is gravest. -/
theorem eq_some_iff {s : Severity} (h : Gravest t ns) :
    t = some s ↔ (∃ n ∈ ns, n.severity = s) ∧ ∀ n ∈ ns, n.severity ≤ s := by
  cases h with
  | absent => simp
  | @present t _ attained bound =>
    obtain ⟨m, hm, rfl⟩ := attained
    constructor
    · rintro ⟨⟩
      exact ⟨⟨m, hm, rfl⟩, bound⟩
    · rintro ⟨⟨n, hn, rfl⟩, hbound⟩
      exact congrArg _ (Severity.le_antisymm (hbound m hm) (bound n hn))

/-- There is none only where there are no notes. -/
theorem eq_none_iff (h : Gravest t ns) : t = none ↔ ns = [] := by
  cases h with
  | absent => simp
  | present attained _ =>
    obtain ⟨n, hn, -⟩ := attained
    simp [List.ne_nil_of_mem hn]

/-- Some note is at least as grave as a threshold if the gravest is. -/
theorem any_iff (h : Gravest t ns) (threshold : Severity) :
    t.any (threshold ≤ ·) = true ↔ ∃ n ∈ ns, threshold ≤ n.severity := by
  cases h with
  | absent => simp
  | present attained bound =>
    obtain ⟨m, hm, rfl⟩ := attained
    rw [Option.any_some, decide_eq_true_eq]
    exact ⟨fun h => ⟨m, hm, h⟩, fun ⟨n, hn, h⟩ => Severity.le_trans h (bound n hn)⟩

end Gravest

mutual

/-- **The worst of a journal is the gravest of all its notes.** -/
theorem gravest_worst : ∀ j : Journal, Gravest j.worst j.allNotes
  | mk title notes children => by
    rw [worst, allNotes]
    exact (Gravest.absent.foldl notes).append (gravest_worstOf children)

theorem gravest_worstOf : ∀ js : List Journal, Gravest (worstOf js) (allNotesOf js)
  | [] => .absent
  | child :: rest => by
    rw [worstOf, allNotesOf]
    exact (gravest_worst child).append (gravest_worstOf rest)

end

/-- **A journal has an error when some note of the tree is one.** -/
theorem hasError_iff {j : Journal} : j.hasError = true ↔ HoldsError j.allNotes := by
  rw [hasError, decide_eq_true_eq, (gravest_worst j).eq_some_iff]
  exact and_iff_left fun n _ => Severity.le_error n.severity

/-! ## Lines of the written form -/

/-- Lines of the given depths. -/
def joined (lines : List (Nat × String)) : String :=
  String.join (lines.map fun l => line l.1 l.2)

mutual

/-- The lines that are shown of a journal, with their depths. -/
def shown (threshold : Severity) (depth : Nat) : Journal → List (Nat × String)
  | mk title notes children =>
    (depth, title) :: (notesFrom threshold notes).map (fun n => (depth + 1, noteText n)) ++
      shownOf threshold (depth + 1) children

/-- The lines that are shown of journals, which are those that have a note to show. -/
def shownOf (threshold : Severity) (depth : Nat) : List Journal → List (Nat × String)
  | [] => []
  | child :: rest =>
    if 0 < countFrom threshold child then
      shown threshold depth child ++ shownOf threshold depth rest
    else shownOf threshold depth rest

end

theorem joined_append (ls ms : List (Nat × String)) : joined (ls ++ ms) = joined ls ++ joined ms := by
  rw [joined, List.map_append, String.join_append]
  rfl

theorem joined_cons (depth : Nat) (text : String) (ls : List (Nat × String)) :
    joined ((depth, text) :: ls) = line depth text ++ joined ls := by
  rw [joined, List.map_cons, String.join_cons]
  rfl

/-- Notes, one a line. -/
theorem joined_notes (depth : Nat) (notes : List Note) :
    joined (notes.map fun n => (depth, noteText n)) =
      String.join (notes.map fun n => line depth (noteText n)) := by
  rw [joined, List.map_map]
  rfl

mutual

/-- **The written form is the lines that are shown.** -/
theorem renderAt_fst (threshold : Severity) : ∀ (depth : Nat) (j : Journal),
    (renderAt threshold depth j).1 = joined (shown threshold depth j)
  | depth, mk title notes children => by
    rw [shown, joined_append, joined_cons, joined_notes, ← renderAll_fst threshold (depth + 1)]
    rfl

theorem renderAll_fst (threshold : Severity) : ∀ (depth : Nat) (js : List Journal),
    (renderAll threshold depth js).1 = joined (shownOf threshold depth js)
  | depth, [] => rfl
  | depth, child :: rest => by
    have hchild := renderAt_fst threshold depth child
    have hrest := renderAll_fst threshold depth rest
    unfold renderAll shownOf
    by_cases hcount : 0 < countFrom threshold child
    · simp only [if_pos hcount]
      rw [joined_append, ← hchild, ← hrest]
    · simp only [if_neg hcount]
      exact hrest

end

/-! ## Every note that counts is shown -/

theorem notesFrom_append (threshold : Severity) (ns ms : List Note) :
    notesFrom threshold (ns ++ ms) = notesFrom threshold ns ++ notesFrom threshold ms :=
  List.filter_append ns ms

mutual

/-- The notes that count are counted. -/
theorem countFrom_eq (threshold : Severity) : ∀ j : Journal,
    countFrom threshold j = (notesFrom threshold j.allNotes).length
  | mk title notes children => by
    rw [countFrom, countFromIn_eq threshold children, allNotes, notesFrom_append,
      List.length_append]

theorem countFromIn_eq (threshold : Severity) : ∀ js : List Journal,
    countFromIn threshold js = (notesFrom threshold (allNotesOf js)).length
  | [] => rfl
  | child :: rest => by
    rw [countFromIn, countFrom_eq threshold child, countFromIn_eq threshold rest, allNotesOf,
      notesFrom_append, List.length_append]

end

mutual

/-- **Every note from the threshold on has a line**, and the lines come in the
order of the notes. -/
theorem notes_sublist_shown (threshold : Severity) : ∀ (depth : Nat) (j : Journal),
    List.Sublist ((notesFrom threshold j.allNotes).map noteText)
      ((shown threshold depth j).map Prod.snd)
  | depth, mk title notes children => by
    have hnotes : ((notesFrom threshold notes).map fun n => (depth + 1, noteText n)).map Prod.snd =
        (notesFrom threshold notes).map noteText := List.map_map
    rw [allNotes, notesFrom_append, List.map_append, shown, List.cons_append, List.map_cons,
      List.map_append, hnotes]
    refine List.Sublist.cons _ (List.Sublist.append (List.Sublist.refl _) ?_)
    exact notes_sublist_shownOf threshold (depth + 1) children

theorem notes_sublist_shownOf (threshold : Severity) : ∀ (depth : Nat) (js : List Journal),
    List.Sublist ((notesFrom threshold (allNotesOf js)).map noteText)
      ((shownOf threshold depth js).map Prod.snd)
  | depth, [] => List.Sublist.refl _
  | depth, child :: rest => by
    rw [allNotesOf, notesFrom_append, List.map_append, shownOf]
    split
    · rw [List.map_append]
      exact List.Sublist.append (notes_sublist_shown threshold depth child)
        (notes_sublist_shownOf threshold depth rest)
    · rename_i hcount
      -- a child that is left out has no note that counts
      rw [countFrom_eq, Nat.not_lt, Nat.le_zero, List.length_eq_zero_iff] at hcount
      rw [hcount]
      exact notes_sublist_shownOf threshold depth rest

end

/-- The notes of a tree that are errors. -/
def errors (j : Journal) : List Note := j.allNotes.filter (·.severity = .error)

/-- **The written form shows every error**, whatever the threshold: it is made of
lines, among which the errors stand in their order. -/
theorem errors_shown (threshold : Severity) (j : Journal) :
    ∃ lines : List (Nat × String), (j.render threshold).1 = joined lines ∧
      List.Sublist (j.errors.map noteText) (lines.map Prod.snd) := by
  refine ⟨shown threshold 0 j, renderAt_fst threshold 0 j, ?_⟩
  refine List.Sublist.trans (List.Sublist.map noteText ?_) (notes_sublist_shown threshold 0 j)
  have hfilter : j.errors = (notesFrom threshold j.allNotes).filter (·.severity = .error) := by
    rw [errors, notesFrom, List.filter_filter]
    refine List.filter_congr fun n _ => ?_
    by_cases h : n.severity = .error
    · simp [h, Severity.le_error]
    · simp [h]
  rw [hfilter]
  exact List.filter_sublist

/-- A journal without errors has none to show. -/
theorem hasError_eq_false_iff {j : Journal} :
    j.hasError = false ↔ ∀ n ∈ j.allNotes, n.severity ≠ .error := by
  rw [← Bool.not_eq_true, hasError_iff, HoldsError]
  simp

end Journal

/-! ## Findings -/

namespace Journal

mutual

/-- A journal is empty when the tree has no note. -/
theorem isEmpty_iff : ∀ j : Journal, j.isEmpty = true ↔ j.allNotes = []
  | mk title notes children => by
    rw [isEmpty, allNotes, Bool.and_eq_true, allEmpty_iff children, List.append_eq_nil_iff,
      List.isEmpty_iff]

theorem allEmpty_iff : ∀ js : List Journal, allEmpty js = true ↔ allNotesOf js = []
  | [] => ⟨fun _ => rfl, fun _ => rfl⟩
  | child :: rest => by
    rw [allEmpty, allNotesOf, Bool.and_eq_true, isEmpty_iff child, allEmpty_iff rest,
      List.append_eq_nil_iff]

end

theorem allNotesOf_append (js ks : List Journal) :
    allNotesOf (js ++ ks) = allNotesOf js ++ allNotesOf ks := by
  induction js with
  | nil => rfl
  | cons j js ih => rw [List.cons_append, allNotesOf, allNotesOf, ih, List.append_assoc]

end Journal

namespace Findings

/-- Nothing that was found is an error. -/
def Harmless (f : Findings) : Prop :=
  ¬ (Journal.HoldsError f.notes ∨ Journal.HoldsError (Journal.allNotesOf f.children))

@[simp] theorem harmless_none : Harmless none := by
  simp [Harmless, none, Journal.HoldsError, Journal.allNotesOf]

@[simp] theorem harmless_append {f g : Findings} : Harmless (f ++ g) ↔ Harmless f ∧ Harmless g := by
  have hnotes : (f ++ g).notes = f.notes ++ g.notes := rfl
  have hchildren : (f ++ g).children = f.children ++ g.children := rfl
  rw [Harmless, Harmless, Harmless, hnotes, hchildren, Journal.allNotesOf_append,
    Journal.holdsError_append, Journal.holdsError_append, ← not_or, or_or_or_comm]

@[simp] theorem harmless_note {severity : Severity} {message : String} :
    Harmless (note severity message) ↔ severity ≠ .error := by
  simp [Harmless, note, Journal.HoldsError, Journal.allNotesOf]

@[simp] theorem harmless_noteIf {condition : Bool} {severity : Severity} {message : String} :
    Harmless (noteIf condition severity message) ↔ condition = true → severity ≠ .error := by
  cases condition <;> simp [noteIf]

/-- What was found inside a node does no less harm under its title. -/
@[simp] theorem harmless_under {title : String} {f : Findings} :
    Harmless (under title f) ↔ Harmless f := by
  have hall : (Journal.mk title f.notes f.children).allNotes =
      f.notes ++ Journal.allNotesOf f.children := by rw [Journal.allNotes]
  rw [Harmless, Harmless, ← Journal.holdsError_append, ← Journal.holdsError_append, ← hall]
  by_cases hempty : (Journal.mk title f.notes f.children).isEmpty = true
  · rw [(Journal.isEmpty_iff _).1 hempty]
    simp [under, hempty, Journal.allNotesOf]
  · simp [under, hempty, Journal.allNotesOf]

/-- Nothing is an error in a list when nothing is in its items. -/
@[simp] theorem harmless_indexed {α : Type} [Inspect α] {xs : List α} {index : Nat} :
    Harmless (indexed index xs) ↔ ∀ x ∈ xs, Harmless (Inspect.findings x) := by
  induction xs generalizing index with
  | nil => simp [indexed]
  | cons x xs ih => simp [indexed, ih]

end Findings

/-- A report has no error when nothing that was found is one. -/
theorem Journal.hasError_record {title : String} {f : Findings} :
    ((Journal.empty title).record f).hasError = false ↔ f.Harmless := by
  rw [← Bool.not_eq_true, hasError_iff, Findings.Harmless, ← holdsError_append]
  simp [Journal.empty, record, Journal.notes, Journal.children, allNotes]

end MapDocument
