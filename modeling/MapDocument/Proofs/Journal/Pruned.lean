import Mathlib.Data.List.Basic
import MapDocument.Proofs.Journal.Places
/-!
# Journals — the written form is that of a pruned journal

To write a journal from a threshold on comes to the same as to write all of the journal
that is left when the notes below the threshold are deleted, and then the children that
have no note left in them (`prune`). What is written of that is its listing: the title
of a journal, its notes, and the listings of its children, a line each, as far indented
as there are titles above. These can be read off again from the depths of the lines
(`chains`), and a lower threshold leaves more of a journal, so it only adds lines.
-/

namespace MapDocument

namespace Severity

/-- From the graver of two on is from both on. -/
theorem max_le_iff {s t u : Severity} : max s t ≤ u ↔ s ≤ u ∧ t ≤ u := by
  cases s <;> cases t <;> cases u <;> decide

/-- The graver of two is the one that the other is at most. -/
theorem max_eq_left {s t : Severity} : s ≤ t → max t s = t := by
  cases s <;> cases t <;> decide

@[inherit_doc max_eq_left]
theorem max_eq_right {s t : Severity} (h : s ≤ t) : max s t = t := if_pos h

end Severity

/-- Nothing is made of the items that are left out. -/
theorem flatMap_filter_of_nil {α β : Type} {p : α → Bool} {f : α → List β} {xs : List α}
    (h : ∀ x ∈ xs, p x = false → f x = []) : (xs.filter p).flatMap f = xs.flatMap f := by
  induction xs with
  | nil => rfl
  | cons x xs ih =>
    obtain ⟨hx, hxs⟩ := List.forall_mem_cons.1 h
    rw [List.filter_cons, List.flatMap_cons, ← ih hxs]
    cases hp : p x with
    | true => rfl
    | false =>
      rw [hx hp]
      rfl

/-- What is made of some of the items is part of what is made of all. -/
theorem sublist_flatMap_filter {α β : Type} {p : α → Bool} {f g : α → List β} {xs : List α}
    (h : ∀ x ∈ xs, (f x).Sublist (g x)) : ((xs.filter p).flatMap f).Sublist (xs.flatMap g) := by
  induction xs with
  | nil => exact List.Sublist.refl _
  | cons x xs ih =>
    obtain ⟨hx, hxs⟩ := List.forall_mem_cons.1 h
    rw [List.filter_cons, List.flatMap_cons]
    split
    · rw [List.flatMap_cons]
      exact hx.append (ih hxs)
    · exact (ih hxs).trans (List.sublist_append_right _ _)

namespace Journal

/-- What holds of a journal if it holds of its children holds of all journals. -/
theorem induct {motive : Journal → Prop}
    (mk : ∀ title notes children, (∀ c ∈ children, motive c) → motive (mk title notes children))
    (j : Journal) : motive j :=
  @Journal.rec motive (fun children => ∀ c ∈ children, motive c) mk nofun
    (fun _ _ hchild hrest => List.forall_mem_cons.2 ⟨hchild, hrest⟩) j

/-! ## Pruning -/

mutual

/-- The journal without the notes below a threshold. -/
def keep (threshold : Severity) : Journal → Journal
  | mk title notes children => mk title (notesFrom threshold notes) (keepIn threshold children)

/-- The journals without the notes below a threshold. -/
def keepIn (threshold : Severity) : List Journal → List Journal
  | [] => []
  | child :: rest => keep threshold child :: keepIn threshold rest

end

mutual

/-- The journal without the children that have no note in them, at whatever depth. -/
def trim : Journal → Journal
  | mk title notes children => mk title notes (trimIn children)

/-- The journals that have a note in them, each without the children that have none. -/
def trimIn : List Journal → List Journal
  | [] => []
  | child :: rest => if child.isEmpty then trimIn rest else trim child :: trimIn rest

end

/-- What is left of a journal from a threshold on: the notes below it are deleted, and then the
children that have no note left in them. The root stays, with or without notes. -/
def prune (threshold : Severity) (j : Journal) : Journal := (j.keep threshold).trim

theorem keepIn_eq (threshold : Severity) (js : List Journal) :
    keepIn threshold js = js.map (keep threshold) := by
  induction js with
  | nil => rfl
  | cons j js ih => rw [keepIn, ih, List.map_cons]

theorem trimIn_eq (js : List Journal) : trimIn js = (js.filter (!·.isEmpty)).map trim := by
  induction js with
  | nil => rfl
  | cons j js ih =>
    rw [trimIn, ih, List.filter_cons]
    cases j.isEmpty <;> rfl

theorem allNotesOf_eq (js : List Journal) : allNotesOf js = js.flatMap allNotes := by
  induction js with
  | nil => rfl
  | cons j js ih => rw [allNotesOf, ih, List.flatMap_cons]

/-- Just the notes from the threshold on are kept. -/
theorem allNotes_keep (threshold : Severity) (j : Journal) :
    (j.keep threshold).allNotes = notesFrom threshold j.allNotes := by
  induction j using induct with
  | mk title notes children ih =>
    rw [keep, allNotes, allNotes, notesFrom_append, keepIn_eq, allNotesOf_eq, allNotesOf_eq,
      List.flatMap_map, notesFrom, notesFrom, List.filter_flatMap]
    exact congrArg _ (List.flatMap_congr ih)

/-- Nothing is kept of a journal in which nothing counts. -/
theorem isEmpty_keep (threshold : Severity) (j : Journal) :
    (j.keep threshold).isEmpty = !decide (0 < countFrom threshold j) := by
  rw [Bool.eq_iff_iff, isEmpty_iff, allNotes_keep, ← List.length_eq_zero_iff, ← countFrom_eq]
  simp

/-- **What is left of a journal** are the notes from the threshold on, and what is left of the
children in which some note counts. -/
theorem prune_mk (threshold : Severity) (title : String) (notes : List Note)
    (children : List Journal) :
    prune threshold (mk title notes children) = mk title (notesFrom threshold notes)
      ((children.filter (0 < countFrom threshold ·)).map (prune threshold)) := by
  have hkept : (fun c => !isEmpty c) ∘ keep threshold =
      fun c => decide (0 < countFrom threshold c) := by
    funext c
    rw [Function.comp_apply, isEmpty_keep, Bool.not_not]
  rw [prune, keep, trim, keepIn_eq, trimIn_eq, List.filter_map, List.map_map, hkept]
  rfl

theorem title_prune (threshold : Severity) (j : Journal) : (j.prune threshold).title = j.title := by
  obtain ⟨title, notes, children⟩ := j
  rw [prune_mk]
  rfl

/-- In a child that is left out nothing counts. -/
theorem notesFrom_of_not_counted {threshold : Severity} {j : Journal}
    (h : decide (0 < countFrom threshold j) = false) : notesFrom threshold j.allNotes = [] := by
  rwa [decide_eq_false_iff_not, countFrom_eq, Nat.not_lt, Nat.le_zero,
    List.length_eq_zero_iff] at h

/-- Just the notes from the threshold on are left. -/
theorem allNotes_prune (threshold : Severity) (j : Journal) :
    (j.prune threshold).allNotes = notesFrom threshold j.allNotes := by
  induction j using induct with
  | mk title notes children ih =>
    rw [prune_mk, allNotes, allNotes, notesFrom_append, allNotesOf_eq, allNotesOf_eq,
      List.flatMap_map, List.flatMap_congr fun c hc => ih c (List.mem_of_mem_filter hc),
      flatMap_filter_of_nil fun c _ => notesFrom_of_not_counted]
    refine congrArg _ ?_
    rw [notesFrom, List.filter_flatMap]
    rfl

/-- Notes that are left out one way or another are left out. -/
theorem notesFrom_notesFrom (s t : Severity) (notes : List Note) :
    notesFrom s (notesFrom t notes) = notesFrom (Severity.max s t) notes := by
  rw [notesFrom, notesFrom, notesFrom, List.filter_filter]
  refine List.filter_congr fun n _ => ?_
  rw [Bool.eq_iff_iff, Bool.and_eq_true, decide_eq_true_eq, decide_eq_true_eq, decide_eq_true_eq,
    Severity.max_le_iff]

/-- What counts in what is left are the notes that count both times. -/
theorem countFrom_prune (s t : Severity) (j : Journal) :
    countFrom s (j.prune t) = countFrom (Severity.max s t) j := by
  rw [countFrom_eq, countFrom_eq, allNotes_prune, notesFrom_notesFrom]

/-- A journal in which some note counts from the graver threshold on is left by the other. -/
theorem countFrom_max_le (s t : Severity) (j : Journal) :
    countFrom (Severity.max s t) j ≤ countFrom t j := by
  rw [countFrom_eq, countFrom_eq, ← notesFrom_notesFrom]
  exact List.length_filter_le _ _

/-- **What is left of what is left** is what is left from the graver threshold on. -/
theorem prune_prune (s t : Severity) (j : Journal) :
    (j.prune t).prune s = j.prune (Severity.max s t) := by
  induction j using induct with
  | mk title notes children ih =>
    have hcounted : ∀ c ∈ children,
        (((fun c => decide (0 < countFrom s c)) ∘ prune t) c && decide (0 < countFrom t c)) =
          decide (0 < countFrom (Severity.max s t) c) := by
      intro c _
      have hle := countFrom_max_le s t c
      rw [Function.comp_apply, countFrom_prune, Bool.eq_iff_iff, Bool.and_eq_true,
        decide_eq_true_eq, decide_eq_true_eq]
      omega
    rw [prune_mk, prune_mk, prune_mk, notesFrom_notesFrom, List.filter_map, List.map_map,
      List.filter_filter, List.filter_congr hcounted]
    refine congrArg _ (List.map_congr_left fun c hc => ?_)
    exact ih c (List.mem_of_mem_filter hc)

/-! ## The listing -/

/-- What a line is written for: a journal, or a note. -/
inductive Entry
  | title (text : String)
  | note (n : Note)

namespace Entry

/-- What is written in the line. -/
def text : Entry → String
  | title text => text
  | note n => noteText n

/-- The note that a line is written for. -/
def note? : Entry → Option Note
  | title _ => none
  | note n => some n

/-- The title or the message has no line break. -/
def Unbroken : Entry → Prop
  | title text => '\n' ∉ text.toList
  | note n => '\n' ∉ n.message.toList

instance : DecidablePred Unbroken
  | title text => inferInstanceAs (Decidable ('\n' ∉ text.toList))
  | note n => inferInstanceAs (Decidable ('\n' ∉ n.message.toList))

/-- Nor has what is written. -/
theorem Unbroken.text {e : Entry} (h : e.Unbroken) : '\n' ∉ e.text.toList := by
  cases e with
  | title text => exact h
  | note n =>
    have hlabel : '\n' ∉ n.severity.label.toList := by
      cases n.severity <;> decide
    have hmessage : '\n' ∉ n.message.toList := h
    simp [Entry.text, noteText, hlabel, hmessage]

end Entry

mutual

/-- The entries of a journal in the order in which they are written, each under the titles of
the journals that it is in: its title, its notes, and what is inside it. -/
def listing : Journal → Places Entry
  | mk title notes children =>
    ([], .title title) ::
      Places.under title (notes.map (fun n => ([], .note n)) ++ listingOf children)

/-- The entries of journals, one journal after the other. -/
def listingOf : List Journal → Places Entry
  | [] => []
  | child :: rest => listing child ++ listingOf rest

end

/-- The line of an entry, which is as deep as there are titles above. -/
def lineAt (depth : Nat) (e : List String × Entry) : Nat × String :=
  (depth + e.1.length, e.2.text)

theorem listingOf_eq (js : List Journal) : listingOf js = js.flatMap listing := by
  induction js with
  | nil => rfl
  | cons j js ih => rw [listingOf, ih, List.flatMap_cons]

theorem shownOf_eq (threshold : Severity) (depth : Nat) (js : List Journal) :
    shownOf threshold depth js =
      (js.filter (0 < countFrom threshold ·)).flatMap (shown threshold depth) := by
  induction js with
  | nil => rfl
  | cons j js ih =>
    rw [shownOf, ih, List.filter_cons]
    by_cases h : 0 < countFrom threshold j
    · simp [h]
    · simp [h]

/-- One title more above an entry is as good as one more depth. -/
theorem map_lineAt_under (depth : Nat) (title : String) (es : Places Entry) :
    (es.under title).map (lineAt depth) = es.map (lineAt (depth + 1)) := by
  simp [Places.under, lineAt, Function.comp_def, Nat.add_assoc, Nat.add_comm 1]

/-- **The lines that are shown are those of the listing of what is left.** -/
theorem shown_eq (threshold : Severity) (depth : Nat) (j : Journal) :
    shown threshold depth j = (j.prune threshold).listing.map (lineAt depth) := by
  induction j using induct generalizing depth with
  | mk title notes children ih =>
    rw [prune_mk, listing, List.map_cons, map_lineAt_under, List.map_append, listingOf_eq,
      List.flatMap_map, List.map_flatMap, shown, shownOf_eq, List.map_map,
      List.flatMap_congr fun c hc => ih c (List.mem_of_mem_filter hc) (depth + 1)]
    rfl

/-! ## Lines of the text -/

/-- The characters of a line. -/
def chars (l : Nat × String) : List Char := List.replicate l.1 '\t' ++ l.2.toList

/-- **Lines that are put together can be told apart** if none of them is broken. -/
theorem splitOn_joined {ls : List (Nat × String)} (h : ∀ l ∈ ls, '\n' ∉ l.2.toList) :
    (joined ls).toList.splitOn '\n' = ls.map chars ++ [[]] := by
  induction ls with
  | nil => rfl
  | cons l ls ih =>
    obtain ⟨hl, hls⟩ := List.forall_mem_cons.1 h
    have hfirst : (joined (l :: ls)).toList = chars l ++ '\n' :: (joined ls).toList := by
      rw [joined_cons, line]
      simp [chars]
    have hchars : ∀ c ∈ chars l, (c == '\n') = false := by
      intro c hc
      rcases List.mem_append.1 hc with htab | htext
      · rw [List.eq_of_mem_replicate htab]
        decide
      · exact beq_eq_false_iff_ne.2 fun hbreak => hl (hbreak ▸ htext)
    rw [hfirst, List.splitOn, List.splitOnP_append_cons_of_forall_mem hchars _ (beq_self_eq_true _),
      ← List.splitOn, ih hls, List.map_cons, List.cons_append]

/-! ## What the listing holds -/

theorem placedOf_eq (js : List Journal) :
    placedOf js = js.flatMap fun c => c.placed.under c.title := by
  induction js with
  | nil => rfl
  | cons j js ih => rw [placedOf, ih, List.flatMap_cons]

/-- Notes are as grave one title further down. -/
theorem filter_under (threshold : Severity) (title : String) (xs : Places Note) :
    (xs.under title).filter (threshold ≤ ·.2.severity) =
      Places.under title (xs.filter (threshold ≤ ·.2.severity)) := by
  rw [Places.under, Places.under, List.filter_map]
  rfl

/-- In a child that is left out nothing counts, at whatever place. -/
theorem placed_of_not_counted {threshold : Severity} {j : Journal}
    (h : decide (0 < countFrom threshold j) = false) :
    j.placed.filter (threshold ≤ ·.2.severity) = [] := by
  have hnone := notesFrom_of_not_counted h
  rw [← map_snd_placed, notesFrom, List.filter_map, List.map_eq_nil_iff] at hnone
  exact hnone

/-- **Each note from the threshold on is left at its place**, and nothing else is. -/
theorem placed_prune (threshold : Severity) (j : Journal) :
    (j.prune threshold).placed = j.placed.filter (threshold ≤ ·.2.severity) := by
  induction j using induct with
  | mk title notes children ih =>
    have hchild : ∀ c ∈ children.filter (0 < countFrom threshold ·),
        (c.prune threshold).placed.under (c.prune threshold).title =
          (c.placed.under c.title).filter (threshold ≤ ·.2.severity) := by
      intro c hc
      rw [ih c (List.mem_of_mem_filter hc), title_prune, filter_under]
    have hnone : ∀ c ∈ children, decide (0 < countFrom threshold c) = false →
        (c.placed.under c.title).filter (threshold ≤ ·.2.severity) = [] := by
      intro c _ hc
      rw [filter_under, placed_of_not_counted hc]
      rfl
    rw [prune_mk, placed, placed, List.filter_append, placedOf_eq, placedOf_eq, List.flatMap_map,
      List.flatMap_congr hchild, flatMap_filter_of_nil hnone, List.filter_flatMap, List.filter_map]
    rfl

/-- The note of an entry, under the same titles. -/
def noteAt (e : List String × Entry) : Option (List String × Note) := e.2.note?.map (e.1, ·)

/-- Notes are the same one title further down. -/
theorem filterMap_under (title : String) (es : Places Entry) :
    (es.under title).filterMap noteAt = Places.under title (es.filterMap noteAt) := by
  have hnote : ∀ e : List String × Entry, noteAt (title :: e.1, e.2) =
      (noteAt e).map fun x => (title :: x.1, x.2) := by
    intro e
    rw [noteAt, noteAt, Option.map_map]
    rfl
  rw [Places.under, Places.under, List.filterMap_map, List.map_filterMap]
  exact List.filterMap_congr fun e _ => hnote e

/-- **The notes of a listing are those of the journal**, each once, in the order in which they
stand, and under the titles that lead to it. -/
theorem filterMap_listing (j : Journal) : j.listing.filterMap noteAt = j.placed.under j.title := by
  induction j using induct with
  | mk title notes children ih =>
    have hnotes : (notes.map fun n => (([], .note n) : List String × Entry)).filterMap noteAt =
        notes.map ([], ·) := by
      rw [List.filterMap_map]
      exact congrFun (List.filterMap_eq_map (f := fun n : Note => (([] : List String), n))) notes
    have htitle : noteAt ([], .title title) = none := rfl
    rw [listing, List.filterMap_cons_none htitle, filterMap_under, List.filterMap_append, hnotes,
      listingOf_eq, List.filterMap_flatMap, List.flatMap_congr ih, ← placedOf_eq, placed]
    rfl

/-- What is left is part of what was there. -/
theorem listing_prune_sublist (threshold : Severity) (j : Journal) :
    (j.prune threshold).listing.Sublist j.listing := by
  induction j using induct with
  | mk title notes children ih =>
    rw [prune_mk, listing, listing, listingOf_eq, listingOf_eq, List.flatMap_map]
    refine List.Sublist.cons_cons _ (List.Sublist.map _ (List.Sublist.append ?_ ?_))
    · exact List.Sublist.map _ List.filter_sublist
    · exact sublist_flatMap_filter ih

/-! ## Titles read off the depths -/

/-- The titles above each of some lines, as they are read off the depths: a line stands under
the last line above it that is of depth 0, the last of depth 1, and so on up to its own depth.
The lines that were read before are given as far as they may still be above others. -/
def chains (above : List String) : List (Nat × String) → List (List String)
  | [] => []
  | (depth, text) :: rest => above.take depth :: chains (above.take depth ++ [text]) rest

/-- The titles that entries stand under are read off their lines, whatever lines follow. -/
def ReadOff (es : Places Entry) : Prop :=
  ∀ above stack : List String, stack.take above.length = above →
    ∃ stack' : List String, stack'.take above.length = above ∧ ∀ rest,
      chains stack (es.map (lineAt above.length) ++ rest) =
        es.map (above ++ ·.1) ++ chains stack' rest

namespace ReadOff

variable {es fs : Places Entry}

theorem nil : ReadOff [] := fun _ stack h => ⟨stack, h, fun _ => rfl⟩

theorem append (h : ReadOff es) (h' : ReadOff fs) : ReadOff (es ++ fs) := by
  intro above stack hstack
  obtain ⟨stack', hstack', hes⟩ := h above stack hstack
  obtain ⟨stack'', hstack'', hfs⟩ := h' above stack' hstack'
  refine ⟨stack'', hstack'', fun rest => ?_⟩
  rw [List.map_append, List.append_assoc, hes, hfs, List.map_append, List.append_assoc]

theorem flatMap {α : Type} {f : α → Places Entry} {xs : List α} (h : ∀ x ∈ xs, ReadOff (f x)) :
    ReadOff (xs.flatMap f) := by
  induction xs with
  | nil => exact nil
  | cons x xs ih =>
    obtain ⟨hx, hxs⟩ := List.forall_mem_cons.1 h
    rw [List.flatMap_cons]
    exact hx.append (ih hxs)

/-- An entry that nothing stands under. -/
theorem self (e : Entry) : ReadOff [([], e)] := by
  intro above stack hstack
  refine ⟨above ++ [e.text], ?_, fun rest => ?_⟩
  · rw [List.take_left]
  · simp [chains, lineAt, hstack]

/-- A title stands above what follows it one further down. -/
theorem under (h : ReadOff es) (title : String) :
    ReadOff (([], .title title) :: Places.under title es) := by
  intro above stack hstack
  obtain ⟨stack', hstack', hes⟩ := h (above ++ [title]) (above ++ [title]) List.take_length
  have hlength : (above ++ [title]).length = above.length + 1 := List.length_append
  rw [hlength] at hstack' hes
  refine ⟨stack', ?_, fun rest => ?_⟩
  · have htake := congrArg (List.take above.length) hstack'
    rwa [List.take_take, Nat.min_eq_left (Nat.le_succ _), List.take_left] at htake
  · have hpaths : (es.under title).map (above ++ ·.1) = es.map ((above ++ [title]) ++ ·.1) := by
      simp [Places.under, Function.comp_def]
    have htitle : lineAt above.length ([], .title title) = (above.length, title) := rfl
    rw [List.map_cons, map_lineAt_under, List.map_cons, hpaths, htitle, List.cons_append, chains,
      hstack, hes, List.append_nil, List.cons_append]

end ReadOff

/-- **The titles that an entry of a listing stands under are read off the lines.** -/
theorem readOff_listing (j : Journal) : ReadOff j.listing := by
  induction j using induct with
  | mk title notes children ih =>
    have hnotes : ReadOff (notes.flatMap fun n => [([], .note n)]) := .flatMap fun n _ => .self _
    rw [← List.map_eq_flatMap] at hnotes
    rw [listing, listingOf_eq]
    exact (hnotes.append (.flatMap ih)).under title

/-- **Writing a journal from a threshold on is writing what is left of it.** Its text is that of
all that is left, and is made of the lines of the listing of that: in the order of the tree, a
line for the title of each journal, under it a line for each of its notes, and then the lines of
its children, each indented by one tab for each title that it stands under. If no title and no
message has a line break, these are the lines that the text has. The notes among them are those
of the journal from the threshold on, each once and under the titles that lead to it, which can
be read off the depths of the lines; and from a lower threshold on there are all these lines and
perhaps others. -/
theorem render_eq_prune (threshold : Severity) (j : Journal) :
    (j.render threshold).1 = ((j.prune threshold).render .info).1 ∧
    (j.render threshold).1 = joined ((j.prune threshold).listing.map (lineAt 0)) ∧
    ((∀ e ∈ j.listing, e.2.Unbroken) →
      (j.render threshold).1.toList.splitOn '\n' =
        (j.prune threshold).listing.map
          (fun e => List.replicate e.1.length '\t' ++ e.2.text.toList) ++ [[]]) ∧
    (j.prune threshold).listing.filterMap noteAt =
      Places.under j.title (j.placed.filter (threshold ≤ ·.2.severity)) ∧
    chains [] ((j.prune threshold).listing.map (lineAt 0)) =
      (j.prune threshold).listing.map Prod.fst ∧
    ∀ lower : Severity, lower ≤ threshold →
      (j.prune threshold).listing.Sublist (j.prune lower).listing := by
  have htext (threshold : Severity) (j : Journal) :
      (j.render threshold).1 = joined ((j.prune threshold).listing.map (lineAt 0)) := by
    rw [render, renderAt_fst, shown_eq]
  refine ⟨?_, htext threshold j, fun hwhole => ?_, ?_, ?_, fun lower hlower => ?_⟩
  · rw [htext, htext, prune_prune, Severity.max_eq_right (Severity.info_le threshold)]
  · have hlines : ∀ l ∈ (j.prune threshold).listing.map (lineAt 0), '\n' ∉ l.2.toList := by
      intro l hl
      obtain ⟨e, he, rfl⟩ := List.mem_map.1 hl
      exact (hwhole e ((listing_prune_sublist threshold j).subset he)).text
    rw [htext, splitOn_joined hlines, List.map_map]
    simp [Function.comp_def, chars, lineAt]
  · rw [filterMap_listing, placed_prune, title_prune]
  · obtain ⟨stack, -, hread⟩ := readOff_listing (j.prune threshold) [] [] rfl
    simpa [chains] using hread []
  · rw [← Severity.max_eq_left hlower, ← prune_prune]
    exact listing_prune_sublist threshold (j.prune lower)

/-- A model whose children have something to tell and something to mend. -/
def unfinished : Journal :=
  ((empty "model").note ⟨.warn, "name is empty"⟩).addChild
      ((empty "static_actors").note ⟨.info, "no actors"⟩) |>.addChild
    ((empty "render_units").addChild ((empty "index 0").note ⟨.error, "no diffuse map"⟩))

/-- From warnings on the actors are left out, and the units stay for what is inside them. -/
theorem render_eq_prune_unfinished :
    (unfinished.render .warn).1.toList.splitOn '\n' =
      ["model", "\t[WARN] name is empty", "\trender_units", "\t\tindex 0",
        "\t\t\t[ERROR] no diffuse map", ""].map String.toList ∧
    (unfinished.prune .warn).listing.Sublist (unfinished.prune .info).listing := by
  refine ⟨?_, (render_eq_prune .warn unfinished).2.2.2.2.2 .info (by decide)⟩
  rw [(render_eq_prune .warn unfinished).2.2.1 (by decide)]
  rfl

end Journal

end MapDocument
