import MapDocument.Proofs.Disk.FileTree
/-!
# Disk — what stands above a path

The folders that a file is to be in are found without a look at the disk, by
taking away one name after the other. A path and the one above it differ in a
single name, apart from names `.`, which lead nowhere; so what leads to a file
leads through all that stands above it.
-/

namespace MapDocument

namespace Path

variable {p q : Path} {r s start : List Char}

/-! ## Texts above a text -/

/-- Above a path with names stands what is before the last of them. -/
theorem parent?_of_cut (hcut : p.cut = (start, r)) (hr : r ≠ []) :
    p.parent? = some ⟨String.ofList (start ++ (beforeName r).reverse)⟩ := by
  rw [parent?, hcut]
  split
  · rename_i heq
    cases heq
    exact absurd rfl hr
  · rename_i heq
    cases heq
    exact absurd rfl hr
  · rename_i heq
    cases heq
    rfl

/-- A path that begins with `/` is cut there. -/
theorem cut_fst_of_head? (h : p.text.toList.head? = some '/') : p.cut.1 = ['/'] := by
  unfold cut
  cases htext : p.text.toList with
  | nil =>
    rw [htext] at h
    cases h
  | cons c cs =>
    rw [htext] at h
    obtain rfl : c = '/' := Option.some.inj h
    rfl

/-- A path that has another above it either begins with `.` and has no names besides, or
loses the last of its names. -/
theorem parent?_eq_some (h : p.parent? = some q) :
    (∃ body, p.text.toList = '.' :: body ∧ dropIdle body.reverse = [] ∧
        (body = [] ∨ ∃ more, body = '/' :: more) ∧ q = ⟨""⟩) ∨
      ∃ start body, p.text.toList = start ++ body ∧
        (start = [] ∨ start = ['/'] ∨ start = ['.'] ∧ ∃ more, body = '/' :: more) ∧
        p.cut = (start, dropIdle body.reverse) ∧ dropIdle body.reverse ≠ [] ∧
        q.text.toList = start ++ (beforeName (dropIdle body.reverse)).reverse := by
  rcases cut_cases p with ⟨hcut, htext⟩ | ⟨start, body, htext, hcut, hstart⟩
  · rw [parent?, hcut] at h
    cases h
    exact .inl ⟨[], htext, rfl, .inl rfl, rfl⟩
  · by_cases hr : dropIdle body.reverse = []
    · rw [parent?, hcut, hr] at h
      rcases hstart with rfl | rfl | ⟨rfl, hmore⟩
      · cases h
      · cases h
      · cases h
        exact .inl ⟨body, htext, hr, .inr hmore, rfl⟩
    · rw [parent?_of_cut hcut hr] at h
      cases h
      exact .inr ⟨start, body, htext, hstart, hcut, hr, String.toList_ofList⟩

/-- A path that has none above it has no names. -/
theorem parent?_eq_none (h : p.parent? = none) :
    ∃ start body, p.text.toList = start ++ body ∧ (start = [] ∨ start = ['/']) ∧
      dropIdle body.reverse = [] := by
  rcases cut_cases p with ⟨hcut, -⟩ | ⟨start, body, htext, hcut, hstart⟩
  · rw [parent?, hcut] at h
    cases h
  · by_cases hr : dropIdle body.reverse = []
    · rw [parent?, hcut, hr] at h
      rcases hstart with hstart | hstart | ⟨rfl, -⟩
      · exact ⟨start, body, htext, .inl hstart, hr⟩
      · exact ⟨start, body, htext, .inr hstart, hr⟩
      · cases h
    · rw [parent?_of_cut hcut hr] at h
      cases h

/-- What stands before the last name of a text is a beginning of it. -/
theorem beforeName_suffix (r : List Char) : beforeName r <:+ r :=
  (dropIdle_suffix _).trans (List.dropWhile_suffix _)

/-- The text above a text is a beginning of it, and shorter. -/
theorem parent?_prefix (h : p.parent? = some q) :
    q.text.toList <+: p.text.toList ∧ q.text.length < p.text.length := by
  rcases parent?_eq_some h with ⟨body, htext, -, -, rfl⟩ | ⟨start, body, htext, -, -, hne, hq⟩
  · refine ⟨List.nil_prefix, ?_⟩
    rw [← String.length_toList, ← String.length_toList, htext]
    simp
  · obtain ⟨hnil, -⟩ := lastName_dropIdle hne
    have hbefore := (beforeName_suffix (dropIdle body.reverse)).trans (dropIdle_suffix body.reverse)
    refine ⟨?_, ?_⟩
    · rw [hq, htext]
      refine (List.prefix_append_right_inj start).2 ?_
      rw [← List.reverse_suffix, List.reverse_reverse]
      exact hbefore
    · have hshort :
          (beforeName (dropIdle body.reverse)).length < (dropIdle body.reverse).length := by
        have hsplit := congrArg List.length (lastName_append_dropWhile (dropIdle body.reverse))
        have hdrop := (dropIdle_suffix ((dropIdle body.reverse).dropWhile (· ≠ '/'))).length_le
        have hpos := List.length_pos_iff.2 hnil
        rw [List.length_append, List.length_reverse] at hsplit
        show (dropIdle ((dropIdle body.reverse).dropWhile (· ≠ '/'))).length < _
        omega
      have hbody := (dropIdle_suffix body.reverse).length_le
      rw [← String.length_toList, ← String.length_toList, hq, htext, List.length_append,
        List.length_append, List.length_reverse]
      rw [List.length_reverse] at hbody
      omega

end Path

namespace FileTree

open MapDocument.Path (dropIdle lastName beforeName)

variable {t : FileTree} {p q : Path} {r s : List Char}

/-! ## Names that lead nowhere -/

/-- Names that lead nowhere. -/
def Idle (names : List String) : Prop := ∀ name ∈ names, name = "."

/-- What counts for nothing at the end of a text is of names that lead nowhere, whatever
the text begins with. -/
theorem exists_idle (r s : List Char)
    (hs : s = [] ∨ s = ['/'] ∨ s = ['.'] ∧ (r = [] ∨ r.getLast? = some '/')) :
    ∃ idle, Idle idle ∧ namesIn (r ++ s).reverse = namesIn (dropIdle r ++ s).reverse ++ idle := by
  have hlater {c : Char} {rest : List Char}
      (h : s = [] ∨ s = ['/'] ∨ s = ['.'] ∧ (c :: rest = [] ∨ (c :: rest).getLast? = some '/')) :
      s = [] ∨ s = ['/'] ∨ s = ['.'] ∧ (rest = [] ∨ rest.getLast? = some '/') := by
    rcases h with h | h | ⟨h, hnil | hlast⟩
    · exact .inl h
    · exact .inr (.inl h)
    · cases hnil
    · cases rest with
      | nil => exact .inr (.inr ⟨h, .inl rfl⟩)
      | cons d rest => exact .inr (.inr ⟨h, .inr (by rwa [List.getLast?_cons_cons] at hlast)⟩)
  fun_induction dropIdle r with
  | case1 rest ih =>
    obtain ⟨idle, hidle, hnames⟩ := ih (hlater hs)
    refine ⟨idle, hidle, ?_⟩
    rw [← hnames, List.cons_append, List.reverse_cons]
    exact (namesIn_append_slash _ []).trans (List.append_nil _)
  | case2 rest ih =>
    obtain ⟨idle, hidle, hnames⟩ := ih (hlater (hlater hs))
    refine ⟨idle ++ ["."], ?_, ?_⟩
    · intro name hname
      rcases List.mem_append.1 hname with hname | hname
      · exact hidle name hname
      · exact List.mem_singleton.1 hname
    · have hsplit : ('.' :: '/' :: rest ++ s).reverse =
          (rest ++ s).reverse ++ '/' :: ['.'] := by simp
      rw [hsplit, namesIn_append_slash, hnames, List.append_assoc]
      rfl
  | case3 =>
    rcases hs with rfl | rfl | ⟨-, hnil | hlast⟩
    · exact ⟨["."], by simp [Idle], rfl⟩
    · exact ⟨["."], by simp [Idle], rfl⟩
    · cases hnil
    · simp at hlast
  | case4 => exact ⟨[], by simp [Idle], (List.append_nil _).symm⟩

/-- The last name of a text stands behind the names before it. -/
theorem namesIn_eq_concat (h : lastName r ≠ []) :
    namesIn r.reverse =
      namesIn (r.dropWhile (· ≠ '/')).reverse ++ [String.ofList (lastName r)] := by
  have hname := namesIn_of_not_mem (Path.not_mem_lastName r) h
  have hsplit := congrArg List.reverse (Path.lastName_append_dropWhile r)
  rw [List.reverse_append, List.reverse_reverse] at hsplit
  rcases Path.front_dropWhile r with hrest | ⟨more, hrest⟩
  · rw [hrest] at hsplit ⊢
    rw [hsplit, List.reverse_nil, List.nil_append, hname]
    rfl
  · rw [hrest] at hsplit ⊢
    have hbefore : namesIn ('/' :: more).reverse = namesIn more.reverse := by
      rw [List.reverse_cons]
      exact (namesIn_append_slash _ []).trans (List.append_nil _)
    rw [hsplit, hbefore, ← hname, List.reverse_cons, List.append_assoc]
    exact namesIn_append_slash _ _

/-- What is left of the end of a text that starts with a `/` starts with it, if anything is. -/
theorem eq_nil_or_getLast?_of_suffix {more : List Char} (h : r <:+ ('/' :: more).reverse) :
    r = [] ∨ r.getLast? = some '/' := by
  cases r with
  | nil => exact .inl rfl
  | cons c cs =>
    refine .inr ?_
    obtain ⟨front, hfront⟩ := h
    have hlast := congrArg List.getLast? hfront
    rw [List.getLast?_append, List.reverse_cons, List.getLast?_concat,
      List.getLast?_eq_some_getLast (List.cons_ne_nil c cs)] at hlast
    rw [List.getLast?_eq_some_getLast (List.cons_ne_nil c cs)]
    exact hlast

/-! ## Names above names -/

/-- The names of a path: those that its last name stands behind, that name, and names that
lead nowhere. -/
theorem namesOf_eq_front (h : lastName (dropIdle p.reversed) ≠ []) :
    ∃ idle, Idle idle ∧ namesOf p =
      namesIn p.front.reverse ++ String.ofList (lastName (dropIdle p.reversed)) :: idle := by
  obtain ⟨idle, hidle, hnames⟩ := exists_idle p.reversed [] (.inl rfl)
  refine ⟨idle, hidle, ?_⟩
  rw [List.append_nil, List.append_nil, namesIn_eq_concat h, Path.reversed, List.reverse_reverse,
    List.append_assoc] at hnames
  exact hnames

/-- A path is of a name inside another: it starts from where that one does, and has one name
more, apart from names that lead nowhere. -/
def LiesIn (p q : Path) : Prop :=
  (p.text.toList.head? = some '/' ↔ q.text.toList.head? = some '/') ∧
    ∃ idle last idle', Idle idle ∧ Idle idle' ∧ namesOf p = namesOf q ++ idle ++ last :: idle'

/-- A path starts from where what its last name stands behind does. -/
theorem head?_front (h : lastName (dropIdle p.reversed) ≠ []) :
    p.text.toList.head? = some '/' ↔ p.front.reverse.head? = some '/' := by
  obtain ⟨ends, hends⟩ := Path.dropIdle_suffix p.reversed
  have htext : p.text.toList =
      p.front.reverse ++ lastName (dropIdle p.reversed) ++ ends.reverse := by
    have hsplit := Path.lastName_append_dropWhile (dropIdle p.reversed)
    rw [hsplit] at hends
    have hreverse := congrArg List.reverse hends
    rw [Path.reversed, List.reverse_reverse, List.reverse_append, List.reverse_append,
      List.reverse_reverse] at hreverse
    exact hreverse.symm
  rw [htext, List.append_assoc]
  cases hfront : p.front.reverse with
  | cons c cs => rfl
  | nil =>
    -- then a name comes first, in which there is no `/`
    have hnone := Path.not_mem_lastName (dropIdle p.reversed)
    cases hlast : lastName (dropIdle p.reversed) with
    | nil => exact absurd hlast h
    | cons c cs =>
      rw [hlast] at hnone
      simp only [List.nil_append, List.cons_append, List.head?_cons, List.head?_nil]
      constructor
      · intro heq
        rw [Option.some.inj heq] at hnone
        exact absurd List.mem_cons_self hnone
      · intro heq
        cases heq

section Fronts

variable {start body : List Char} {r : Path} (htext : p.text.toList = start ++ body)
  (hstart : start = [] ∨ start = ['/'] ∨ start = ['.'] ∧ ∃ more, body = '/' :: more)
  (hne : dropIdle body.reverse ≠ [])
  (hq : q.text.toList = start ++ (beforeName (dropIdle body.reverse)).reverse)
  (hr : lastName (dropIdle r.reversed) ≠ []) (hfront : r.front = p.front)
include htext hstart hne hq hr hfront

/-- A path whose name stands behind what the name of another does has that name behind those
of the path above the other. -/
theorem namesOf_of_front :
    ∃ idle idle', Idle idle ∧ Idle idle' ∧
      namesOf r = namesOf q ++ idle ++ String.ofList (lastName (dropIdle r.reversed)) :: idle' := by
  obtain ⟨-, hpfront⟩ := Path.front_of_cut htext hstart hne
  have hs : start.reverse = [] ∨ start.reverse = ['/'] ∨ start.reverse = ['.'] ∧
      ((dropIdle body.reverse).dropWhile (· ≠ '/') = [] ∨
        ((dropIdle body.reverse).dropWhile (· ≠ '/')).getLast? = some '/') := by
    rcases hstart with rfl | rfl | ⟨rfl, more, rfl⟩
    · exact .inl rfl
    · exact .inr (.inl rfl)
    · exact .inr (.inr ⟨rfl, eq_nil_or_getLast?_of_suffix
        ((List.dropWhile_suffix _).trans (Path.dropIdle_suffix _))⟩)
  obtain ⟨idle, hidle, hbefore⟩ := exists_idle _ start.reverse hs
  obtain ⟨idle', hidle', hnames⟩ := namesOf_eq_front hr
  refine ⟨idle, idle', hidle, hidle', ?_⟩
  rw [hfront, hpfront, hbefore, List.reverse_append, List.reverse_reverse] at hnames
  rw [hnames]
  show _ = namesIn q.text.toList ++ idle ++ _
  rw [hq]
  rfl

/-- So it lies in that path. -/
theorem liesIn_of_front (hcut : p.cut = (start, dropIdle body.reverse)) : LiesIn r q := by
  obtain ⟨hlast, -⟩ := Path.front_of_cut htext hstart hne
  obtain ⟨idle, idle', hidle, hidle', hnames⟩ := namesOf_of_front htext hstart hne hq hr hfront
  refine ⟨?_, idle, _, idle', hidle, hidle', hnames⟩
  have hp : lastName (dropIdle p.reversed) ≠ [] := by
    rw [hlast]
    exact (Path.lastName_dropIdle hne).1
  rw [head?_front hr, hfront, ← head?_front hp]
  obtain ⟨hbegins, -⟩ := Path.parent?_prefix (Path.parent?_of_cut hcut hne)
  rw [String.toList_ofList, ← hq] at hbegins
  rcases hstart with rfl | rfl | ⟨rfl, -⟩
  · have hnone : p.text.toList.head? ≠ some '/' := by
      intro hhead
      have hfst := Path.cut_fst_of_head? hhead
      rw [hcut] at hfst
      cases hfst
    refine ⟨fun hhead => absurd hhead hnone, fun hhead => absurd ?_ hnone⟩
    obtain ⟨rest, hrest⟩ := hbegins
    rw [← hrest, List.head?_append, hhead]
    rfl
  · rw [htext, hq]
    rfl
  · rw [htext, hq]
    rfl

end Fronts

/-- **A path lies in the one above it.** -/
theorem liesIn_of_parent (h : p.parent? = some q) : LiesIn p q := by
  rcases Path.parent?_eq_some h with
    ⟨body, htext, hidle, hbody, rfl⟩ | ⟨start, body, htext, hstart, hcut, hne, hq⟩
  · have hs : body.reverse = [] ∨ body.reverse.getLast? = some '/' := by
      rcases hbody with rfl | ⟨more, rfl⟩
      · exact .inl rfl
      · exact eq_nil_or_getLast?_of_suffix List.suffix_rfl
    obtain ⟨idle, hall, hnames⟩ := exists_idle body.reverse ['.'] (.inr (.inr ⟨rfl, hs⟩))
    refine ⟨by simp [htext], [], ".", idle, by simp [Idle], hall, ?_⟩
    rw [hidle, List.reverse_append, List.reverse_reverse] at hnames
    show namesIn p.text.toList = _
    rw [htext]
    exact hnames
  · refine liesIn_of_front htext hstart hne hq ?_ rfl hcut
    rw [(Path.front_of_cut htext hstart hne).1]
    exact (Path.lastName_dropIdle hne).1

/-- **With another extension it lies there still.** -/
theorem liesIn_withExtension {extension : String} (hslash : '/' ∉ extension.toList)
    (hpoint : '.' ∈ extension.toList) (h : p.parent? = some q) :
    LiesIn (p.withExtension extension) q := by
  cases hname : p.name? with
  | none =>
    rw [Path.withExtension_of_name? extension hname]
    exact liesIn_of_parent h
  | some name =>
    obtain ⟨start, body, htext, hstart, hcut, hne⟩ := Path.cut_of_name? hname
    obtain ⟨hlast, hfront⟩ := Path.front_withExtension hname hslash hpoint
    rw [Path.parent?_of_cut hcut hne] at h
    cases h
    exact liesIn_of_front htext hstart hne String.toList_ofList hlast hfront hcut

/-- A path stands beside another: it lies in the same path; or is the same, if that one lies
in none. -/
def Beside (p r : Path) : Prop :=
  (∀ q, p.parent? = some q → LiesIn r q) ∧ (p.parent? = none → r = p)

theorem Beside.refl (p : Path) : Beside p p := ⟨fun _ => liesIn_of_parent, fun _ => rfl⟩

theorem beside_withExtension {extension : String} (hslash : '/' ∉ extension.toList)
    (hpoint : '.' ∈ extension.toList) (p : Path) : Beside p (p.withExtension extension) := by
  refine ⟨fun q => liesIn_withExtension hslash hpoint, fun hparent => ?_⟩
  cases hname : p.name? with
  | none => exact Path.withExtension_of_name? extension hname
  | some name =>
    obtain ⟨start, body, -, -, hcut, hne⟩ := Path.cut_of_name? hname
    rw [Path.parent?_of_cut hcut hne] at hparent
    cases hparent

/-- A path that has none above it has no names but such that lead nowhere. -/
theorem idle_of_parent (h : p.parent? = none) : Idle (namesOf p) := by
  obtain ⟨start, body, htext, hstart, hidle⟩ := Path.parent?_eq_none h
  have hs : start.reverse = [] ∨ start.reverse = ['/'] := by
    rcases hstart with rfl | rfl
    · exact .inl rfl
    · exact .inr rfl
  obtain ⟨idle, hall, hnames⟩ := exists_idle body.reverse start.reverse (hs.imp_right .inl)
  have hnone : namesIn start = [] := by
    rcases hstart with rfl | rfl <;> rfl
  rw [hidle, List.nil_append, List.reverse_reverse, hnone, List.nil_append, List.reverse_append,
    List.reverse_reverse, List.reverse_reverse] at hnames
  show Idle (namesIn p.text.toList)
  rw [htext, hnames]
  exact hall

/-! ## Paths without an idle end -/

/-- A path is clean if no name that leads nowhere is behind its last one. -/
def Clean (p : Path) : Prop := p.text = "." ∨ (namesOf p).getLast? ≠ some "."

/-- A path that stands above another is clean. -/
theorem clean_of_parent (h : p.parent? = some q) : Clean q := by
  rcases Path.parent?_eq_some h with
    ⟨body, -, -, -, rfl⟩ | ⟨start, body, -, hstart, -, hne, hq⟩
  · exact .inr (by decide)
  · by_cases hb : beforeName (dropIdle body.reverse) = []
    · rw [hb, List.reverse_nil, List.append_nil] at hq
      rcases hstart with rfl | rfl | ⟨rfl, -⟩
      · rw [String.toList_eq_nil_iff] at hq
        exact .inr (by rw [show q = ⟨""⟩ from congrArg Path.mk hq]; decide)
      · have htext : q.text = "/" := String.toList_injective hq
        exact .inr (by rw [show q = ⟨"/"⟩ from congrArg Path.mk htext]; decide)
      · exact .inl (String.toList_injective hq)
    · obtain ⟨hnil, hdot⟩ := Path.lastName_dropIdle hb
      have hslash : start = [] ∨ start = ['/'] ∨
          start = ['.'] ∧ '/' ∈ beforeName (dropIdle body.reverse) := by
        rcases hstart with hstart | hstart | ⟨hstart, more, rfl⟩
        · exact .inl hstart
        · exact .inr (.inl hstart)
        · refine .inr (.inr ⟨hstart, ?_⟩)
          rcases eq_nil_or_getLast?_of_suffix
            ((Path.beforeName_suffix _).trans (Path.dropIdle_suffix _)) with hnone | hlast
          · exact absurd hnone hb
          · exact List.mem_of_getLast? hlast
      have hlast := Path.lastName_append_start hslash
      have hnames := namesIn_eq_concat (by rw [hlast]; exact hnil)
      rw [hlast, List.reverse_append, List.reverse_reverse] at hnames
      refine .inr ?_
      show (namesIn q.text.toList).getLast? ≠ _
      rw [hq, hnames, List.getLast?_concat]
      exact fun heq => hdot (String.ofList_injective (Option.some.inj heq))

/-- The names of a clean path: those above it and one more. -/
theorem Clean.names_of_parent (hclean : Clean p) (h : p.parent? = some q) :
    ∃ idle last, Idle idle ∧ namesOf p = namesOf q ++ idle ++ [last] := by
  rcases hclean with htext | hlast
  · obtain rfl : p = ⟨"."⟩ := congrArg Path.mk htext
    cases h
    exact ⟨[], ".", by simp [Idle], by decide⟩
  · obtain ⟨-, idle, last, idle', hidle, hidle', hnames⟩ := liesIn_of_parent h
    refine ⟨idle, last, hidle, ?_⟩
    cases hrev : idle'.reverse with
    | nil =>
      rw [List.reverse_eq_nil_iff] at hrev
      rw [hnames, hrev]
    | cons stay before =>
      -- what leads nowhere would come last
      have hidle'' : idle' = before.reverse ++ [stay] := by
        rw [← List.reverse_reverse idle', hrev, List.reverse_cons]
      have hstay : stay = "." := hidle' stay (by simp [hidle''])
      rw [hnames, hidle'', ← List.cons_append, ← List.append_assoc, List.getLast?_concat, hstay]
        at hlast
      exact absurd rfl hlast

/-- Above a clean path without names there is nothing. -/
theorem Clean.names_of_none (hclean : Clean p) (h : p.parent? = none) : namesOf p = [] := by
  rcases hclean with htext | hlast
  · obtain rfl : p = ⟨"."⟩ := congrArg Path.mk htext
    cases h
  · cases hrev : (namesOf p).reverse with
    | nil => exact List.reverse_eq_nil_iff.1 hrev
    | cons stay before =>
      have hnames : namesOf p = before.reverse ++ [stay] := by
        rw [← List.reverse_reverse (namesOf p), hrev, List.reverse_cons]
      have hstay : stay = "." := idle_of_parent h stay (by simp [hnames])
      rw [hnames, List.getLast?_concat, hstay] at hlast
      exact absurd rfl hlast

end FileTree

end MapDocument
