import Mathlib.Data.List.TakeDrop
import MapDocument.Disk.Path
/-!
# Disk — names and extensions of paths

A path that can name a file ends in the name of that file as it was written.
Where the extension of a path is replaced, what is behind the stem of its name
is exchanged and nothing else, even if the path goes on with something that
counts for nothing. So a path and the same path with an extension that has a
point in it never end in the same name.
-/

namespace MapDocument.Path

/-! ## Last names -/

section LastNames

variable {r s name rest : List Char}

/-- What a name can stand behind, in reverse: nothing, or something that ends in `/`. -/
def Front (rest : List Char) : Prop := rest = [] ∨ ∃ more, rest = '/' :: more

/-- A name that a file can have. -/
def Names (name : List Char) : Prop := name ≠ [] ∧ name ≠ ['.'] ∧ name ≠ ['.', '.']

/-- Nothing is taken past the character that ends it. -/
theorem not_mem_takeWhile (c : Char) (cs : List Char) : c ∉ cs.takeWhile (· ≠ c) := by
  intro h
  have hall : (cs.takeWhile (· ≠ c)).all (· ≠ c) = true := List.all_takeWhile
  have hne := List.all_eq_true.1 hall c h
  simp at hne

/-- A text is its last name and what stands before that. -/
theorem lastName_append_dropWhile (r : List Char) :
    r = (lastName r).reverse ++ r.dropWhile (· ≠ '/') := by
  rw [lastName, List.reverse_reverse, List.takeWhile_append_dropWhile]

/-- There is no `/` in a name. -/
theorem not_mem_lastName (r : List Char) : '/' ∉ lastName r :=
  fun h => not_mem_takeWhile '/' r (List.mem_reverse.1 h)

/-- A name stands behind nothing, or behind a `/`. -/
theorem front_dropWhile (r : List Char) : Front (r.dropWhile (· ≠ '/')) := by
  have hhead := List.head?_dropWhile_not (· ≠ '/') r
  cases hrest : r.dropWhile (· ≠ '/') with
  | nil => exact .inl rfl
  | cons c more =>
    rw [hrest] at hhead
    obtain rfl : c = '/' := by simpa using hhead
    exact .inr ⟨more, rfl⟩

/-- A name and what it stands behind are told apart again. -/
theorem dropWhile_append_of_front (hname : '/' ∉ name) (hrest : Front rest) :
    (name.reverse ++ rest).dropWhile (· ≠ '/') = rest := by
  have hall : ∀ c ∈ name.reverse, decide (c ≠ '/') = true := by
    intro c hc
    refine decide_eq_true fun heq => hname ?_
    rw [← heq]
    exact List.mem_reverse.1 hc
  rw [List.dropWhile_append_of_pos hall]
  rcases hrest with rfl | ⟨more, rfl⟩
  · rfl
  · exact List.dropWhile_cons_of_neg (by decide)

theorem lastName_append_of_front (hname : '/' ∉ name) (hrest : Front rest) :
    lastName (name.reverse ++ rest) = name := by
  have hsplit := lastName_append_dropWhile (name.reverse ++ rest)
  rw [dropWhile_append_of_front hname hrest] at hsplit
  exact (List.reverse_inj.1 (List.append_cancel_right hsplit)).symm

/-! ## Ends that count for nothing -/

/-- What is left without them is the rest of the text. -/
theorem dropIdle_suffix (r : List Char) : dropIdle r <:+ r := by
  fun_induction dropIdle r with
  | case1 rest ih => exact ih.trans (List.suffix_cons _ _)
  | case2 rest ih => exact ih.trans ((List.suffix_cons _ _).trans (List.suffix_cons _ _))
  | case3 => exact List.nil_suffix
  | case4 => exact List.suffix_rfl

/-- A text that ends in a proper name has no such end. -/
theorem dropIdle_of_lastName (h : lastName r ≠ []) (hdot : lastName r ≠ ['.']) :
    dropIdle r = r := by
  fun_cases dropIdle r with
  | case1 rest => exact absurd rfl h
  | case2 rest => exact absurd rfl hdot
  | case3 => exact absurd rfl hdot
  | case4 => rfl

/-- What is left ends in a proper name, unless nothing is. -/
theorem lastName_dropIdle (h : dropIdle r ≠ []) :
    lastName (dropIdle r) ≠ [] ∧ lastName (dropIdle r) ≠ ['.'] := by
  fun_induction dropIdle r with
  | case1 rest ih => exact ih h
  | case2 rest ih => exact ih h
  | case3 => exact absurd rfl h
  | case4 cs hslash hdotSlash hdot =>
    have hsplit := lastName_append_dropWhile cs
    constructor
    · intro hname
      rw [hname] at hsplit
      rcases front_dropWhile cs with hrest | ⟨more, hrest⟩
      · exact h (hsplit.trans hrest)
      · exact hslash more (hsplit.trans hrest)
    · intro hname
      rw [hname] at hsplit
      rcases front_dropWhile cs with hrest | ⟨more, hrest⟩
      · exact hdot (hsplit.trans (congrArg ('.' :: ·) hrest))
      · exact hdotSlash more (hsplit.trans (congrArg ('.' :: ·) hrest))

/-- Such an end may be taken away in part before the rest of it is. -/
theorem dropIdle_drop {k : Nat} (h : k + (dropIdle r).length ≤ r.length) :
    dropIdle (r.drop k) = dropIdle r := by
  fun_induction dropIdle r generalizing k with
  | case1 rest ih =>
    cases k with
    | zero => rfl
    | succ k => exact ih (by simp only [List.length_cons] at h; omega)
  | case2 rest ih =>
    match k with
    | 0 => rfl
    | 1 => rfl
    | k + 2 => exact ih (by simp only [List.length_cons] at h; omega)
  | case3 =>
    match k with
    | 0 => rfl
    | 1 => rfl
    | k + 2 => simp at h
  | case4 cs hslash hdotSlash hdot =>
    obtain rfl : k = 0 := by omega
    exact dropIdle.eq_4 cs hslash hdotSlash hdot

/-- What stands before a text that does not only count for nothing stays there. -/
theorem dropIdle_append (h : dropIdle r ≠ []) : dropIdle (r ++ s) = dropIdle r ++ s := by
  fun_induction dropIdle r with
  | case1 rest ih => exact ih h
  | case2 rest ih => exact ih h
  | case3 => exact absurd rfl h
  | case4 cs hslash hdotSlash hdot =>
    match cs with
    | [] => exact absurd rfl h
    | [c] =>
      -- a single point would count for nothing with what is before it, so it is not one
      refine dropIdle.eq_4 _ (fun more heq => ?_) (fun more heq => ?_) (fun heq => ?_)
      · exact hslash [] (by rw [(List.cons.inj heq).1])
      · exact hdot (by rw [(List.cons.inj heq).1])
      · exact hdot (by rw [(List.cons.inj heq).1])
    | c :: d :: cs =>
      refine dropIdle.eq_4 _ (fun more heq => ?_) (fun more heq => ?_) nofun
      · exact hslash (d :: cs) (by rw [(List.cons.inj heq).1])
      · obtain ⟨hc, heq⟩ := List.cons.inj heq
        exact hdotSlash cs (by rw [hc, (List.cons.inj heq).1])

end LastNames

/-! ## Names of files -/

section Names

variable {p : Path} {name stem extension : List Char}

/-- The text of a path in reverse. -/
def reversed (p : Path) : List Char := p.text.toList.reverse

/-- How a path is cut: a beginning, which a name can stand behind or which something
follows that starts with a `/`, and what is left of the rest. -/
theorem cut_cases (p : Path) :
    p.cut = (['.'], []) ∧ p.text.toList = ['.'] ∨
      ∃ start body, p.text.toList = start ++ body ∧ p.cut = (start, dropIdle body.reverse) ∧
        (start = [] ∨ start = ['/'] ∨ start = ['.'] ∧ ∃ more, body = '/' :: more) := by
  unfold cut
  split
  · rename_i rest htext
    exact .inr ⟨['/'], rest, htext, rfl, .inr (.inl rfl)⟩
  · rename_i htext
    exact .inl ⟨rfl, htext⟩
  · rename_i rest htext
    exact .inr ⟨['.'], '/' :: rest, htext, rfl, .inr (.inr ⟨rfl, rest, rfl⟩)⟩
  · exact .inr ⟨[], _, rfl, rfl, .inl rfl⟩

/-- What a name stands behind is not taken apart by the cut. -/
theorem front_append {r start : List Char}
    (h : start = [] ∨ start = ['/'] ∨ start = ['.'] ∧ '/' ∈ r) :
    Front (r.dropWhile (· ≠ '/') ++ start.reverse) := by
  rcases front_dropWhile r with hrest | ⟨more, hrest⟩
  · rw [hrest]
    rcases h with rfl | rfl | ⟨-, hslash⟩
    · exact .inl rfl
    · exact .inr ⟨[], rfl⟩
    · -- without a `/` there would be nothing but the name
      have hsplit := lastName_append_dropWhile r
      rw [hrest, List.append_nil] at hsplit
      rw [hsplit] at hslash
      exact absurd (List.mem_reverse.1 hslash) (not_mem_lastName r)
  · rw [hrest]
    exact .inr ⟨more ++ start.reverse, rfl⟩

/-- So the last name is the same with what stands before the cut. -/
theorem lastName_append_start {r start : List Char}
    (h : start = [] ∨ start = ['/'] ∨ start = ['.'] ∧ '/' ∈ r) :
    lastName (r ++ start.reverse) = lastName r := by
  have hsplit : r ++ start.reverse =
      (lastName r).reverse ++ (r.dropWhile (· ≠ '/') ++ start.reverse) := by
    rw [← List.append_assoc, ← lastName_append_dropWhile]
  rw [hsplit]
  exact lastName_append_of_front (not_mem_lastName r) (front_append h)

/-- What is left of a text that starts with a `/`, if anything, has it still. -/
theorem slash_mem_dropIdle {more : List Char} (h : dropIdle ('/' :: more).reverse ≠ []) :
    '/' ∈ dropIdle ('/' :: more).reverse := by
  obtain ⟨ends, heq⟩ := dropIdle_suffix ('/' :: more).reverse
  have hlast : (ends ++ dropIdle ('/' :: more).reverse).getLast? = some '/' := by
    rw [heq, List.getLast?_reverse]
    rfl
  rw [List.getLast?_append] at hlast
  cases hleft : (dropIdle ('/' :: more).reverse).getLast? with
  | none => exact absurd (List.getLast?_eq_none_iff.1 hleft) h
  | some c =>
    rw [hleft] at hlast
    cases hlast
    exact List.mem_of_getLast? hleft

/-- What the last name of a path stands behind, in reverse. -/
def front (p : Path) : List Char := (dropIdle p.reversed).dropWhile (· ≠ '/')

/-- The last name of a path, and what it stands behind, are not taken apart by the cut. -/
theorem front_of_cut {start body : List Char} (htext : p.text.toList = start ++ body)
    (hstart : start = [] ∨ start = ['/'] ∨ start = ['.'] ∧ ∃ more, body = '/' :: more)
    (hne : dropIdle body.reverse ≠ []) :
    lastName (dropIdle p.reversed) = lastName (dropIdle body.reverse) ∧
      p.front = (dropIdle body.reverse).dropWhile (· ≠ '/') ++ start.reverse := by
  have hslash : start = [] ∨ start = ['/'] ∨ start = ['.'] ∧ '/' ∈ dropIdle body.reverse := by
    rcases hstart with hstart | hstart | ⟨hstart, more, rfl⟩
    · exact .inl hstart
    · exact .inr (.inl hstart)
    · exact .inr (.inr ⟨hstart, slash_mem_dropIdle hne⟩)
  have hreversed : dropIdle p.reversed = dropIdle body.reverse ++ start.reverse := by
    rw [reversed, htext, List.reverse_append, dropIdle_append hne]
  refine ⟨?_, ?_⟩
  · rw [hreversed, lastName_append_start hslash]
  · have hsplit : dropIdle body.reverse ++ start.reverse =
        (lastName (dropIdle body.reverse)).reverse ++
          ((dropIdle body.reverse).dropWhile (· ≠ '/') ++ start.reverse) := by
      rw [← List.append_assoc, ← lastName_append_dropWhile]
    rw [front, hreversed, hsplit]
    exact dropWhile_append_of_front (not_mem_lastName _) (front_append hslash)

/-- How a path that is of a file is cut. -/
theorem cut_of_name? (h : p.name? = some name) :
    ∃ start body, p.text.toList = start ++ body ∧
      (start = [] ∨ start = ['/'] ∨ start = ['.'] ∧ ∃ more, body = '/' :: more) ∧
      p.cut = (start, dropIdle body.reverse) ∧ dropIdle body.reverse ≠ [] := by
  rcases cut_cases p with ⟨hcut, -⟩ | ⟨start, body, htext, hcut, hstart⟩
  · rw [name?, hcut] at h
    cases h
  · refine ⟨start, body, htext, hstart, hcut, fun hnil => ?_⟩
    rw [name?, hcut, hnil] at h
    cases h

/-- The name of a path is the last one of what does not count for nothing. -/
theorem lastName_of_name? (h : p.name? = some name) :
    lastName (dropIdle p.reversed) = name ∧ Names name ∧
      ∃ start r, p.cut = (start, r) ∧ lastName r = name ∧
        p.front = r.dropWhile (· ≠ '/') ++ start.reverse := by
  obtain ⟨start, body, htext, hstart, hcut, hne⟩ := cut_of_name? h
  obtain ⟨hlast, hfront⟩ := front_of_cut htext hstart hne
  obtain ⟨hdots, hname⟩ : lastName (dropIdle body.reverse) ≠ ['.', '.'] ∧
      lastName (dropIdle body.reverse) = name := by
    rw [name?, hcut] at h
    simp only at h
    split at h
    · cases h
    · exact ⟨by assumption, Option.some.inj h⟩
  obtain ⟨hnil, hdot⟩ := lastName_dropIdle hne
  refine ⟨hlast.trans hname, ?_, start, _, hcut, hname, hfront⟩
  rw [← hname]
  exact ⟨hnil, hdot, hdots⟩

/-- **A path that ends in a name that a file can have is of that name.** -/
theorem name?_of_names (h : Names (lastName p.reversed)) : p.name? = some (lastName p.reversed) := by
  obtain ⟨hnil, hdot, hdots⟩ := h
  rcases cut_cases p with ⟨-, htext⟩ | ⟨start, body, htext, hcut, hstart⟩
  · rw [reversed, htext] at hdot
    exact absurd rfl hdot
  · have hstart' : start = [] ∨ start = ['/'] ∨ start = ['.'] ∧ '/' ∈ body.reverse := by
      rcases hstart with hstart | hstart | ⟨hstart, more, rfl⟩
      · exact .inl hstart
      · exact .inr (.inl hstart)
      · exact .inr (.inr ⟨hstart, List.mem_reverse.2 List.mem_cons_self⟩)
    have hname : lastName p.reversed = lastName body.reverse := by
      rw [reversed, htext, List.reverse_append, lastName_append_start hstart']
    rw [hname] at hnil hdot hdots ⊢
    have hbody : dropIdle body.reverse = body.reverse := dropIdle_of_lastName hnil hdot
    rw [name?, hcut, hbody]
    cases hrev : body.reverse with
    | nil =>
      rw [hrev] at hnil
      exact absurd rfl hnil
    | cons c cs =>
      rw [hrev] at hdots
      exact if_neg hdots

/-! ## Extensions -/

/-- A name without a point behind its first character has no extension; any other one
is cut at its last point. -/
theorem cutName_cases (name : List Char) :
    cutName name = (name, none) ∨ ∃ stem extension, name = stem ++ '.' :: extension ∧
      stem ≠ [] ∧ '.' ∉ extension ∧ cutName name = (stem, some extension) := by
  unfold cutName
  rw [List.span_eq_takeWhile_dropWhile]
  split
  · rename_i extension c stem heq
    obtain ⟨rfl, hdrop⟩ := Prod.mk.inj heq
    refine .inr ⟨_, _, ?_, by simp, ?_, rfl⟩
    · have hsplit := List.takeWhile_append_dropWhile (p := (· ≠ '.')) (l := name.reverse)
      rw [hdrop] at hsplit
      have hname := congrArg List.reverse hsplit
      rw [List.reverse_append, List.reverse_reverse, List.reverse_cons, List.append_assoc] at hname
      exact hname.symm
    · exact fun h => not_mem_takeWhile '.' _ (List.mem_reverse.1 h)
  · exact .inl rfl

/-- The last point is found, wherever else there are points. -/
theorem cutName_append (hstem : stem ≠ []) (hextension : '.' ∉ extension) :
    cutName (stem ++ '.' :: extension) = (stem, some extension) := by
  have hreverse : (stem ++ '.' :: extension).reverse = extension.reverse ++ '.' :: stem.reverse := by
    simp
  have hall : ∀ c ∈ extension.reverse, decide (c ≠ '.') = true := by
    intro c hc
    refine decide_eq_true fun heq => hextension ?_
    rw [← heq]
    exact List.mem_reverse.1 hc
  have htake : (extension.reverse ++ '.' :: stem.reverse).takeWhile (· ≠ '.') =
      extension.reverse := by
    rw [List.takeWhile_append_of_pos hall, List.takeWhile_cons_of_neg (by decide), List.append_nil]
  have hdrop : (extension.reverse ++ '.' :: stem.reverse).dropWhile (· ≠ '.') =
      '.' :: stem.reverse := by
    rw [List.dropWhile_append_of_pos hall, List.dropWhile_cons_of_neg (by decide)]
  unfold cutName
  rw [List.span_eq_takeWhile_dropWhile, hreverse, htake, hdrop]
  cases hrev : stem.reverse with
  | nil => exact absurd (List.reverse_eq_nil_iff.1 hrev) hstem
  | cons c cs =>
    simp only
    rw [← hrev, List.reverse_reverse, List.reverse_reverse]

/-- Another extension stands behind the stem of the name, where the name stood. -/
theorem reversed_replaceExtension (extension : String) (h : p.name? = some name) :
    (p.replaceExtension extension).reversed =
      ((cutName name).1 ++ '.' :: extension.toList).reverse ++ p.front := by
  obtain ⟨-, -, start, r, hcut, -, hfront⟩ := lastName_of_name? h
  have hstem : p.stem? = some (cutName name).1 := by rw [stem?, h]; rfl
  unfold replaceExtension reversed
  rw [hcut, hstem, hfront]
  simp

/-- A path without a name keeps its extension. -/
theorem replaceExtension_of_name? (extension : String) (h : p.name? = none) :
    p.replaceExtension extension = p := by
  have hstem : p.stem? = none := by rw [stem?, h]; rfl
  unfold replaceExtension
  rw [hstem]

theorem withExtension_of_name? (extension : String) (h : p.name? = none) :
    p.withExtension extension = p := by
  have hextension : p.extension? = none := by rw [extension?, h]; rfl
  rw [withExtension, hextension]
  exact replaceExtension_of_name? extension h

/-- Without as many characters as its extension has, a path ends in the same stem still, with
some extension, behind the same names; what counts for nothing at its end may take the place
of the old one. -/
theorem exists_lastName_drop {r : List Char} (hname : lastName (dropIdle r) = stem ++ '.' :: extension)
    (hstem : stem ≠ []) (hextension : '.' ∉ extension) :
    ∃ left, '.' ∉ left ∧ lastName (dropIdle (r.drop extension.length)) = stem ++ '.' :: left ∧
      (dropIdle (r.drop extension.length)).dropWhile (· ≠ '/') =
        (dropIdle r).dropWhile (· ≠ '/') := by
  by_cases hidle : extension.length + (dropIdle r).length ≤ r.length
  · exact ⟨extension, hextension, by rw [dropIdle_drop hidle, hname], by rw [dropIdle_drop hidle]⟩
  · obtain ⟨ends, hends⟩ := dropIdle_suffix r
    have hlength : ends.length + (dropIdle r).length = r.length := by
      rw [← List.length_append, hends]
    have hslash : '/' ∉ stem ++ '.' :: extension := by
      rw [← hname]
      exact not_mem_lastName _
    obtain ⟨rest, hsplit, hfront⟩ : ∃ rest,
        dropIdle r = (stem ++ '.' :: extension).reverse ++ rest ∧ Front rest := by
      refine ⟨_, ?_, front_dropWhile (dropIdle r)⟩
      rw [← hname]
      exact lastName_append_dropWhile _
    -- nothing is left of what counts for nothing, and the extension loses its end
    have hdrop : r.drop extension.length =
        (stem ++ '.' :: extension.take ends.length).reverse ++ rest := by
      have htake : extension.length - (extension.length - ends.length) = ends.length := by omega
      have hleft : extension.reverse.drop (extension.length - ends.length) =
          (extension.take ends.length).reverse := by
        rw [List.drop_reverse, htake]
      rw [← hends, List.drop_append, List.drop_of_length_le (by omega), List.nil_append, hsplit,
        List.reverse_append, List.reverse_cons, List.append_assoc, List.append_assoc,
        List.drop_append_of_le_length (by simp), hleft]
      simp
    have hslash' : '/' ∉ stem ++ '.' :: extension.take ends.length := by
      simp only [List.mem_append, List.mem_cons, not_or] at hslash ⊢
      exact ⟨hslash.1, hslash.2.1, fun h => hslash.2.2 (List.mem_of_mem_take h)⟩
    have hlast : lastName (r.drop extension.length) = stem ++ '.' :: extension.take ends.length := by
      rw [hdrop, lastName_append_of_front hslash' hfront]
    have hproper : dropIdle (r.drop extension.length) = r.drop extension.length := by
      refine dropIdle_of_lastName ?_ ?_
      · rw [hlast]
        simp
      · rw [hlast]
        intro hdot
        cases stem with
        | nil => exact hstem rfl
        | cons c stem => simp at hdot
    refine ⟨extension.take ends.length, fun h => hextension (List.mem_of_mem_take h), ?_, ?_⟩
    · rw [hproper, hlast]
    · rw [hproper, hdrop, hsplit, dropWhile_append_of_front hslash' hfront,
        dropWhile_append_of_front hslash hfront]

/-- The stem of a name is the beginning of it, up to a point if anything was cut. -/
theorem cutName_fst_cases (name : List Char) :
    (cutName name).1 = name ∨ ∃ extension, name = (cutName name).1 ++ '.' :: extension ∧
      '.' ∉ extension := by
  rcases cutName_cases name with hcut | ⟨stem, extension, hname, -, hpoint, hcut⟩
  · exact .inl (by rw [hcut])
  · exact .inr ⟨extension, by rw [hcut]; exact hname, hpoint⟩

/-- Replacing the extension of a path with a name keeps the stem of the name. -/
theorem lastName_replaceExtension {extension : String} (h : p.name? = some name)
    (hslash : '/' ∉ extension.toList) :
    lastName (p.replaceExtension extension).reversed =
      (cutName name).1 ++ '.' :: extension.toList := by
  obtain ⟨-, -, _, r, -, hname, -⟩ := lastName_of_name? h
  have hstem : '/' ∉ (cutName name).1 := by
    intro hmem
    refine not_mem_lastName r ?_
    rw [hname]
    rcases cutName_fst_cases name with heq | ⟨old, heq, -⟩
    · rwa [heq] at hmem
    · rw [heq]
      exact List.mem_append_left _ hmem
  rw [reversed_replaceExtension extension h]
  refine lastName_append_of_front ?_ (front_dropWhile _)
  simp [hstem, hslash]

/-- Another extension leaves what the name of a path stands behind. -/
theorem front_replaceExtension {extension : String} (h : p.name? = some name)
    (hslash : '/' ∉ extension.toList) (hpoint : '.' ∈ extension.toList) :
    lastName (dropIdle (p.replaceExtension extension).reversed) ≠ [] ∧
      (p.replaceExtension extension).front = p.front := by
  have hlast := lastName_replaceExtension h hslash
  have hlong : 1 < (lastName (p.replaceExtension extension).reversed).length := by
    have hpos := List.length_pos_of_mem hpoint
    rw [hlast, List.length_append, List.length_cons]
    omega
  have hproper : dropIdle (p.replaceExtension extension).reversed =
      (p.replaceExtension extension).reversed := by
    refine dropIdle_of_lastName ?_ ?_
    · exact List.ne_nil_of_length_pos (by omega)
    · intro hdot
      rw [hdot] at hlong
      simp at hlong
  have hname := not_mem_lastName (p.replaceExtension extension).reversed
  rw [hlast] at hname
  rw [front, hproper]
  refine ⟨List.ne_nil_of_length_pos (by omega), ?_⟩
  rw [reversed_replaceExtension extension h]
  exact dropWhile_append_of_front hname (front_dropWhile _)

/-- Before an extension is replaced, the path may lose characters at its end, which leaves it
the stem of its name, some extension, and what the name stands behind. -/
theorem withExtension_eq (extension : String) (hname : p.name? = some name) :
    ∃ shorter : Path, p.withExtension extension = shorter.replaceExtension extension ∧
      shorter.front = p.front ∧ (shorter = p ∨ ∃ left, '.' ∉ left ∧ (cutName name).1 ≠ [] ∧
        lastName (dropIdle shorter.reversed) = (cutName name).1 ++ '.' :: left) := by
  rcases cutName_cases name with hcut | ⟨stem, old, rfl, hstem, hold, hcut⟩
  · refine ⟨p, ?_, rfl, .inl rfl⟩
    simp [withExtension, extension?, hname, hcut]
  · obtain ⟨hlast, -⟩ := lastName_of_name? hname
    obtain ⟨left, hleft, hshort, hfront⟩ := exists_lastName_drop hlast hstem hold
    have hreversed : reversed ⟨String.ofList (p.text.toList.take (p.text.length - old.length))⟩ =
        p.reversed.drop old.length := by
      rw [reversed, reversed, List.drop_reverse, String.length_toList, String.toList_ofList]
    refine ⟨⟨String.ofList (p.text.toList.take (p.text.length - old.length))⟩, ?_, ?_, .inr ?_⟩
    · simp [withExtension, extension?, hname, hcut]
    · rw [front, hreversed, hfront, front]
    · rw [hcut, hreversed]
      exact ⟨left, hleft, hstem, hshort⟩

/-- **A path with another extension is of the same stem**, if it can be of a file at all. -/
theorem lastName_withExtension {extension : String} (hname : p.name? = some name)
    (hslash : '/' ∉ extension.toList)
    (hnames : Names (lastName (p.withExtension extension).reversed)) :
    lastName (p.withExtension extension).reversed =
      (cutName name).1 ++ '.' :: extension.toList := by
  obtain ⟨shorter, hwith, -, rfl | ⟨left, hleft, hstem, hshort⟩⟩ := withExtension_eq extension hname
  · rw [hwith]
    exact lastName_replaceExtension hname hslash
  · rw [hwith] at hnames ⊢
    cases hfound : shorter.name? with
    | none =>
      -- what has no name is left as it is, and cannot be of a file
      rw [replaceExtension_of_name? extension hfound] at hnames
      rw [name?_of_names hnames] at hfound
      cases hfound
    | some found =>
      obtain ⟨hfoundLast, -⟩ := lastName_of_name? hfound
      rw [hshort] at hfoundLast
      rw [lastName_replaceExtension hfound hslash, ← hfoundLast, cutName_append hstem hleft]

/-- A path with another extension is of a name behind the same names. -/
theorem front_withExtension {extension : String} (hname : p.name? = some name)
    (hslash : '/' ∉ extension.toList) (hpoint : '.' ∈ extension.toList) :
    lastName (dropIdle (p.withExtension extension).reversed) ≠ [] ∧
      (p.withExtension extension).front = p.front := by
  obtain ⟨shorter, hwith, hfront, hsame⟩ := withExtension_eq extension hname
  rw [hwith, ← hfront]
  cases hfound : shorter.name? with
  | some found => exact front_replaceExtension hfound hslash hpoint
  | none =>
    rw [replaceExtension_of_name? extension hfound]
    refine ⟨?_, rfl⟩
    rcases hsame with rfl | ⟨left, -, -, hshort⟩
    · rw [hname] at hfound
      cases hfound
    · rw [hshort]
      simp

/-- **An extension with a point in it makes another name**: where both paths are of files,
these are two. -/
theorem lastName_withExtension_ne {extension : String} (hslash : '/' ∉ extension.toList)
    (hpoint : '.' ∈ extension.toList)
    (hnames : Names (lastName (p.withExtension extension).reversed)) :
    ∃ name, p.name? = some name ∧ name ≠ lastName (p.withExtension extension).reversed := by
  cases hname : p.name? with
  | none =>
    rw [withExtension_of_name? extension hname] at hnames
    rw [name?_of_names hnames] at hname
    cases hname
  | some name =>
    refine ⟨name, rfl, ?_⟩
    rw [lastName_withExtension hname hslash hnames]
    intro heq
    rcases cutName_fst_cases name with hstem | ⟨old, hold, hnone⟩
    · have hlength := congrArg List.length heq
      rw [hstem] at hlength
      simp at hlength
    · have hpart := List.append_cancel_left (hold.symm.trans heq)
      rw [(List.cons.inj hpart).2] at hnone
      exact hnone hpoint

end Names

end MapDocument.Path
