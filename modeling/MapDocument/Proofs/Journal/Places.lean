import MapDocument.Proofs.Journal
/-!
# Journals — where notes stand

The titles on the way from the root of a journal to a note are the place of
the note. Where nodes are inspected one inside the other, each note of a node
stands at the place of that node, and nothing else stands anywhere: clean nodes
leave no journal, and do not shift the places of the others.
-/

namespace MapDocument

/-! ## Places -/

/-- Things at places, which are lists of titles. -/
abbrev Places (α : Type) := List (List String × α)

namespace Places

variable {α β : Type}

/-- The same things, each one title further down. -/
def under (title : String) (xs : Places α) : Places α := xs.map fun (path, x) => (title :: path, x)

/-- The things of several groups, each under the title of its group. -/
def groups (gs : List (String × Places α)) : Places α :=
  gs.flatMap fun (title, xs) => xs.under title

/-- The groups that the items of a list are, the first of which has the given index. -/
def itemGroups (inside : β → Places α) (index : Nat) (xs : List β) : List (String × Places α) :=
  (xs.zipIdx index).map fun (x, i) => (s!"index {i}", inside x)

/-- The things of the items of a list, each under the index of its item. -/
def items (inside : β → Places α) (xs : List β) : Places α := groups (itemGroups inside 0 xs)

/-- The own notes of nodes, at the places of the nodes. -/
def notes (own : α → List Note) (xs : Places α) : Places Note :=
  xs.flatMap fun (path, x) => (own x).map (path, ·)

/-- No two things stand at one place. -/
def Distinct (xs : Places α) : Prop := (xs.map Prod.fst).Nodup

theorem notes_append (own : α → List Note) (xs ys : Places α) :
    notes own (xs ++ ys) = xs.notes own ++ ys.notes own :=
  List.flatMap_append

/-- Notes move with their nodes. -/
theorem notes_under (own : α → List Note) (title : String) (xs : Places α) :
    (xs.under title).notes own = (xs.notes own).under title := by
  simp [notes, under, List.flatMap_map, List.map_flatMap, Function.comp_def]

theorem groups_append (gs hs : List (String × Places α)) :
    groups (gs ++ hs) = groups gs ++ groups hs :=
  List.flatMap_append

/-- A single group. -/
theorem groups_singleton (title : String) (xs : Places α) :
    groups [(title, xs)] = xs.under title :=
  List.append_nil _

/-! ## Distinct places -/

/-- One thing is not at two places. -/
theorem distinct_singleton (x : List String × α) : Distinct [x] :=
  List.nodup_cons.2 ⟨List.not_mem_nil, .nil⟩

/-- A place in a group starts with the title of the group. -/
theorem exists_of_mem_groups {gs : List (String × Places α)} {path : List String}
    (h : path ∈ (groups gs).map Prod.fst) :
    ∃ title ∈ gs.map Prod.fst, ∃ rest, path = title :: rest := by
  obtain ⟨⟨_, x⟩, hx, rfl⟩ := List.mem_map.1 h
  obtain ⟨⟨title, xs⟩, hg, hx⟩ := List.mem_flatMap.1 hx
  obtain ⟨⟨rest, y⟩, -, heq⟩ := List.mem_map.1 hx
  cases heq
  exact ⟨title, List.mem_map.2 ⟨_, hg, rfl⟩, rest, rfl⟩

/-- Places one title further down are as distinct as they were. -/
theorem Distinct.under {xs : Places α} (h : xs.Distinct) (title : String) :
    (xs.under title).Distinct := by
  have hpaths : (xs.under title).map Prod.fst = (xs.map Prod.fst).map (title :: ·) := by
    simp [Places.under, Function.comp_def]
  rw [Distinct, hpaths, List.Nodup, List.pairwise_map]
  exact List.Pairwise.imp (fun hne heq => hne (List.cons.inj heq).2) h

/-- **Groups of distinct places are distinct** when their titles are. -/
theorem distinct_groups {gs : List (String × Places α)} (htitles : (gs.map Prod.fst).Nodup)
    (h : ∀ g ∈ gs, g.2.Distinct) : (groups gs).Distinct := by
  induction gs with
  | nil => exact .nil
  | cons g gs ih =>
    obtain ⟨hnotin, htitles⟩ := List.nodup_cons.1 htitles
    have hrest := ih htitles fun other hother => h other (List.mem_cons_of_mem g hother)
    have hcons : groups (g :: gs) = g.2.under g.1 ++ groups gs := rfl
    rw [Distinct, hcons, List.map_append, List.nodup_append]
    refine ⟨(h g List.mem_cons_self).under g.1, hrest, ?_⟩
    -- a place in both groups would start with both titles
    rintro path hpath _ hother rfl
    obtain ⟨⟨_, x⟩, hx, rfl⟩ := List.mem_map.1 hpath
    obtain ⟨⟨rest, y⟩, -, heq⟩ := List.mem_map.1 hx
    cases heq
    obtain ⟨title, htitle, _, heq⟩ := exists_of_mem_groups hother
    obtain ⟨rfl, -⟩ := List.cons.inj heq
    exact hnotin htitle

/-- A node and the groups inside it are at distinct places. -/
theorem Distinct.self {gs : List (String × Places α)} (h : (groups gs).Distinct) (x : α) :
    Distinct (([], x) :: groups gs) := by
  refine List.nodup_cons.2 ⟨fun hnil => ?_, h⟩
  obtain ⟨_, -, _, heq⟩ := exists_of_mem_groups hnil
  cases heq

/-- Titles tell the indices of items apart. -/
theorem index_injective {i j : Nat} (h : s!"index {i}" = s!"index {j}") : i = j := by
  have hrepr : Nat.repr i = Nat.repr j := by simpa using h
  have hdigits : Nat.toDigits 10 i = Nat.toDigits 10 j := by
    rw [← Nat.toList_repr, ← Nat.toList_repr, hrepr]
  have hvalue (n : Nat) : Nat.ofDigitChars 10 (Nat.toDigits 10 n) 0 = n :=
    Nat.ofDigitChars_ten_toDigits
  rw [← hvalue i, hdigits, hvalue]

/-- **Items of a list are at distinct places** when what is inside each is. -/
theorem distinct_items {inside : β → Places α} (h : ∀ x, (inside x).Distinct) (xs : List β) :
    (items inside xs).Distinct := by
  refine distinct_groups ?_ ?_
  · have hindices : (xs.zipIdx 0).map Prod.snd = List.range' 0 xs.length := List.zipIdx_map_snd 0 xs
    have htitles : (itemGroups inside 0 xs).map Prod.fst =
        ((xs.zipIdx 0).map Prod.snd).map fun i => s!"index {i}" := by
      simp only [itemGroups, List.map_map, Function.comp_def]
    rw [htitles, hindices, List.Nodup, List.pairwise_map]
    exact List.Pairwise.imp (fun hne heq => hne (index_injective heq)) List.nodup_range'
  · intro g hg
    obtain ⟨⟨x, i⟩, -, rfl⟩ := List.mem_map.1 hg
    exact h x

end Places

/-! ## Notes at their places -/

namespace Journal

mutual

/-- The notes of a journal, each at its place below the root. -/
def placed : Journal → Places Note
  | mk _ notes children => notes.map ([], ·) ++ placedOf children

/-- The notes of journals, each at its place from the title of its journal on. -/
def placedOf : List Journal → Places Note
  | [] => []
  | child :: rest => (placed child).under child.title ++ placedOf rest

end

mutual

/-- The journals below the root. -/
def inner : Journal → List Journal
  | mk _ _ children => innerOf children

/-- Journals and those below them. -/
def innerOf : List Journal → List Journal
  | [] => []
  | child :: rest => child :: inner child ++ innerOf rest

end

theorem placedOf_append (js ks : List Journal) :
    placedOf (js ++ ks) = placedOf js ++ placedOf ks := by
  induction js with
  | nil => rfl
  | cons j js ih => rw [List.cons_append, placedOf, placedOf, ih, List.append_assoc]

theorem innerOf_append (js ks : List Journal) : innerOf (js ++ ks) = innerOf js ++ innerOf ks := by
  induction js with
  | nil => rfl
  | cons j js ih => rw [List.cons_append, innerOf, innerOf, ih, List.append_assoc]

mutual

/-- Notes keep their order when their places are shown. -/
theorem map_snd_placed : ∀ j : Journal, j.placed.map Prod.snd = j.allNotes
  | mk title notes children => by
    rw [placed, allNotes, List.map_append, map_snd_placedOf children]
    simp [Function.comp_def]

theorem map_snd_placedOf : ∀ js : List Journal, (placedOf js).map Prod.snd = allNotesOf js
  | [] => rfl
  | child :: rest => by
    rw [placedOf, allNotesOf, List.map_append, map_snd_placedOf rest, ← map_snd_placed child]
    simp [Places.under, Function.comp_def]

end

end Journal

/-! ## Findings about nodes -/

namespace Findings

variable {α ν : Type} {own : ν → List Note} {f g : Findings} {nodes : Places ν}
variable {gs hs : List (String × Places ν)}

/-- The notes of what was found, each at its place below the node. -/
def placed (f : Findings) : Places Note := f.notes.map ([], ·) ++ Journal.placedOf f.children

/-- No journal that was found is empty, nor any below it. -/
def Pruned (f : Findings) : Prop := ∀ j ∈ Journal.innerOf f.children, j.isEmpty = false

theorem Pruned.append (hf : f.Pruned) (hg : g.Pruned) : (f ++ g).Pruned := by
  have hchildren : (f ++ g).children = f.children ++ g.children := rfl
  intro j hj
  rw [hchildren, Journal.innerOf_append] at hj
  rcases List.mem_append.1 hj with hj | hj
  · exact hf j hj
  · exact hg j hj

/-- A journal in which nothing was found is not kept. -/
theorem Pruned.under (h : f.Pruned) (title : String) : (under title f).Pruned := by
  cases hempty : (Journal.mk title f.notes f.children).isEmpty with
  | true =>
    have hchildren : (Findings.under title f).children = [] := if_pos hempty
    rw [Pruned, hchildren]
    exact nofun
  | false =>
    have hchildren : (Findings.under title f).children = [.mk title f.notes f.children] :=
      if_neg (by rw [hempty]; decide)
    have hinner : Journal.innerOf [.mk title f.notes f.children] =
        .mk title f.notes f.children :: Journal.innerOf f.children := List.append_nil _
    rw [Pruned, hchildren, hinner]
    intro j hj
    rcases List.mem_cons.1 hj with rfl | hj
    · exact hempty
    · exact h j hj

/-- What was found inside a node are the own notes of the groups of nodes inside it, in
journals none of which is empty. -/
structure Inside (own : ν → List Note) (f : Findings) (gs : List (String × Places ν)) : Prop where
  placed : Journal.placedOf f.children = (Places.groups gs).notes own
  pruned : ∀ j ∈ Journal.innerOf f.children, j.isEmpty = false

/-- What was found are the own notes of nodes, in journals none of which is empty below
the first. -/
structure Accounts (own : ν → List Note) (f : Findings) (nodes : Places ν) : Prop where
  placed : f.placed = nodes.notes own
  pruned : ∀ j ∈ Journal.innerOf f.children, j.isEmpty = false

/-- Own notes are not inside. -/
theorem inside_note (severity : Severity) (message : String) :
    Inside own (note severity message) [] :=
  ⟨rfl, nofun⟩

theorem inside_noteIf (condition : Bool) (severity : Severity) (message : String) :
    Inside own (noteIf condition severity message) [] := by
  cases condition with
  | true => exact inside_note severity message
  | false => exact ⟨rfl, nofun⟩

/-- What is inside does not depend on which notes a node has. -/
theorem Inside.ite {c : Prop} [Decidable c] (hf : Inside own f gs) (hg : Inside own g gs) :
    Inside own (if c then f else g) gs := by
  split
  · exact hf
  · exact hg

/-- What is inside adds up. -/
theorem Inside.append (hf : Inside own f gs) (hg : Inside own g hs) :
    Inside own (f ++ g) (gs ++ hs) where
  placed := by
    have hchildren : (f ++ g).children = f.children ++ g.children := rfl
    rw [hchildren, Journal.placedOf_append, hf.placed, hg.placed, Places.groups_append,
      Places.notes_append]
  pruned := Pruned.append hf.pruned hg.pruned

/-- A node that has notes of its own comes before what is inside it. -/
theorem Inside.self {x : ν} (h : Inside own f gs) (hx : own x = f.notes) :
    Accounts own f (([], x) :: Places.groups gs) where
  placed := by
    have hself : Places.notes own (([], x) :: Places.groups gs) =
        (own x).map ([], ·) ++ (Places.groups gs).notes own := rfl
    rw [Findings.placed, h.placed, hself, hx]
  pruned := h.pruned

/-- One that has none does not show. -/
theorem Inside.only (h : Inside own f gs) (hf : f.notes = []) :
    Accounts own f (Places.groups gs) where
  placed := by
    rw [Findings.placed, h.placed, hf]
    rfl
  pruned := h.pruned

/-- **The journal of a node inside holds what was found about it**, under its title;
if nothing was found there is none. -/
theorem Accounts.under (h : Accounts own f nodes) (title : String) :
    Inside own (under title f) [(title, nodes)] where
  placed := by
    cases hempty : (Journal.mk title f.notes f.children).isEmpty with
    | true =>
      have hchildren : (Findings.under title f).children = [] := if_pos hempty
      have hnothing : f.placed = [] := by
        have hall := Journal.map_snd_placed (.mk title f.notes f.children)
        rwa [(Journal.isEmpty_iff _).1 hempty, List.map_eq_nil_iff] at hall
      rw [hchildren, Places.groups_singleton, Places.notes_under, ← h.placed, hnothing]
      rfl
    | false =>
      have hchildren : (Findings.under title f).children = [.mk title f.notes f.children] :=
        if_neg (by rw [hempty]; decide)
      rw [hchildren, Places.groups_singleton, Places.notes_under, ← h.placed]
      exact List.append_nil _
  pruned := Pruned.under h.pruned title

variable [Inspect α] {inside : α → Places ν}

/-- The items of a list are the groups inside it. -/
theorem inside_indexed (h : ∀ x, Accounts own (Inspect.findings x) (inside x)) (index : Nat)
    (xs : List α) : Inside own (indexed index xs) (Places.itemGroups inside index xs) := by
  induction xs generalizing index with
  | nil => exact ⟨rfl, nofun⟩
  | cons x xs ih => exact ((h x).under _).append (ih (index + 1))

/-- A list has no notes of its own. -/
theorem notes_indexed (index : Nat) (xs : List α) : (indexed index xs).notes = [] := by
  induction xs generalizing index with
  | nil => rfl
  | cons x xs ih => exact ih (index + 1)

/-- **What was found about a list are the notes of its items, each under its index.** -/
theorem accounts_list (h : ∀ x, Accounts own (Inspect.findings x) (inside x)) (xs : List α) :
    Accounts own (Inspect.findings xs) (Places.items inside xs) :=
  (inside_indexed h 0 xs).only (notes_indexed 0 xs)

end Findings

end MapDocument
