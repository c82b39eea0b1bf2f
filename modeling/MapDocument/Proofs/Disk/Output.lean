import MapDocument.Proofs.Disk.Abreast
/-!
# Disk — where outputs are put

An output is put into a folder, under the stem of its source. So the places of
two outputs are the same when the stems are and the folders have the same
place, and an output takes the place of its source when the name of the source
has the extension of the output already and the folder has the place of its own.
-/

namespace MapDocument

namespace Path

variable {name stem extension other : List Char}

/-! ## Stems -/

/-- A stem is a beginning of its name, -/
theorem cutName_fst_prefix (name : List Char) : (cutName name).1 <+: name := by
  rcases cutName_fst_cases name with heq | ⟨extension, heq, -⟩
  · exact ⟨[], (List.append_nil _).trans heq⟩
  · exact ⟨'.' :: extension, heq.symm⟩

/-- and is not empty. -/
theorem cutName_fst_ne_nil (h : name ≠ []) : (cutName name).1 ≠ [] := by
  rcases cutName_cases name with hcut | ⟨stem, extension, -, hstem, -, hcut⟩
  · rwa [hcut]
  · rwa [hcut]

/-- With an extension behind it a stem is its name when the name has this extension. -/
theorem stem_append_eq_iff :
    (cutName name).1 ++ '.' :: extension = name ↔ (cutName name).2 = some extension := by
  rcases cutName_cases name with hcut | ⟨stem, old, hname, -, -, hcut⟩
  · rw [hcut]
    refine ⟨fun heq => ?_, nofun⟩
    have hlength := congrArg List.length heq
    simp at hlength
  · rw [hcut]
    constructor
    · intro heq
      have hpart := List.append_cancel_left (heq.trans hname)
      rw [(List.cons.inj hpart).2]
    · intro heq
      rw [hname, Option.some.inj heq]

/-- A stem that gets another extension stays in the stem of the new name. -/
theorem prefix_cutName (hstem : stem ≠ []) (extension : List Char) :
    stem <+: (cutName (stem ++ '.' :: extension)).1 := by
  rcases cutName_cases (stem ++ '.' :: extension) with hcut | ⟨stem', last, hname, -, hlast, hcut⟩
  · rw [hcut]
    exact List.prefix_append _ _
  · rw [hcut]
    rcases List.append_eq_append_iff.1 hname with ⟨between, rfl, -⟩ | ⟨between, rfl, hends⟩
    · exact List.prefix_append _ _
    · cases between with
      | nil => exact ⟨[], by simp⟩
      | cons c between =>
        -- then there would be a point in the last extension
        obtain ⟨-, rfl⟩ := List.cons.inj hends
        simp at hlast

/-- **With an extension that has a point in it, behind any other, a stem is never its name.** -/
theorem stem_append_append_ne (hname : name ≠ []) (hpoint : '.' ∈ other) (extension : List Char) :
    (cutName ((cutName name).1 ++ '.' :: extension)).1 ++ '.' :: other ≠ name := by
  intro heq
  obtain ⟨more, hmore⟩ := prefix_cutName (cutName_fst_ne_nil hname) extension
  rw [← hmore, List.append_assoc] at heq
  rcases cutName_fst_cases name with hsame | ⟨old, hold, hnone⟩
  · have hlength := congrArg List.length heq
    simp only [hsame, List.length_append, List.length_cons] at hlength
    omega
  · have hpart := List.append_cancel_left (heq.trans hold)
    cases more with
    | nil =>
      obtain ⟨-, rfl⟩ := List.cons.inj hpart
      exact hnone hpoint
    | cons c more =>
      obtain ⟨-, rfl⟩ := List.cons.inj hpart
      simp at hnone

/-! ## Names of outputs -/

/-- The name that the output of a source has. -/
def outputName (source : Path) (extension : String) : String :=
  source.parts.stem ++ "." ++ extension

theorem toList_outputName (source : Path) (extension : String) :
    (source.outputName extension).toList = source.parts.stem.toList ++ '.' :: extension.toList := by
  rw [outputName, String.toList_append, String.toList_append, List.append_assoc]
  rfl

end Path

namespace FileTree

open MapDocument.Path (Front Names cutName lastName dropIdle)

variable {t : FileTree} {p q folder source : Path} {name : List Char}

/-! ## Files in folders -/

/-- **A file is in the folder above it.** -/
theorem place_of_parent (hname : p.name? = some name) (hparent : p.parent? = some q) :
    t.place p = t.place q ++ [String.ofList name] := by
  obtain ⟨start, body, htext, hstart, hcut, hne⟩ := Path.cut_of_name? hname
  obtain ⟨hlast, hnames, -⟩ := Path.lastName_of_name? hname
  have hin := liesIn_of_parent hparent
  have hq := Path.parent?_of_cut hcut hne
  rw [hparent] at hq
  cases hq
  obtain ⟨idle, idle', hidle, hidle', heq⟩ := namesOf_of_front htext hstart hne
    String.toList_ofList (by rw [hlast]; exact hnames.1) rfl
  rw [place, heq, hlast, hin.origin, List.foldl_append, List.foldl_append, foldl_idle hidle,
    List.foldl_cons, foldl_idle hidle', step_of_names hnames]
  rfl

/-- A file has a folder above it. -/
theorem exists_parent (hname : p.name? = some name) :
    p.parent? = some p.parts.folder := by
  obtain ⟨start, body, -, -, hcut, hne⟩ := Path.cut_of_name? hname
  rw [Path.parts, Path.parent?_of_cut hcut hne]
  rfl

/-- What is read has a name, in a tree as a disk has it. -/
theorem exists_name?_of_read {content : Bytes} (hclosed : t.Closed) (h : t.read p = .ok content) :
    ∃ name, p.name? = some name := by
  obtain ⟨⟨hstart, hfollow⟩, hopen, hentry⟩ := read_eq_ok.1 h
  obtain ⟨hempty, -⟩ := start_eq_ok hstart
  have hne := lastName_ne_nil hempty hopen
  obtain ⟨before, hnames⟩ := exists_namesIn hne
  rw [Path.reversed, List.reverse_reverse] at hnames
  have hnames : namesOf p = before ++ [String.ofList (lastName p.reversed)] := hnames
  -- the last name is looked up in a folder
  rw [hnames, follow_append] at hfollow
  obtain ⟨m, -, hlast⟩ := bind_eq_ok.1 hfollow
  have hplace : t.place p = step m (String.ofList (lastName p.reversed)) := follow_eq_ok hlast
  have hfolder : t.entry? m = some .folder := by
    rw [follow] at hlast
    split at hlast
    · cases hlast
    · cases hlast
    · assumption
  rw [hplace] at hentry
  by_cases hdot : lastName p.reversed = ['.']
  · rw [hdot] at hentry
    have hstay : t.entry? m = some (.file content) := hentry
    rw [hfolder] at hstay
    cases hstay
  · by_cases hdots : lastName p.reversed = ['.', '.']
    · rw [hdots] at hentry
      have habove := hclosed.above m (by simp [hfolder])
      have hup : t.entry? m.dropLast = some (.file content) := hentry
      rw [habove] at hup
      cases hup
    · exact ⟨_, Path.name?_of_names ⟨hne, hdot, hdots⟩⟩

/-! ## Names behind folders -/

section Joins

variable {name : String} (hslash : '/' ∉ name.toList)
include hslash

/-- A name without a `/` is put behind the names of a folder, at the same beginning. -/
theorem exists_front_join (folder : Path) :
    ∃ front, (folder.join name).text.toList = front ++ name.toList ∧ Front front.reverse ∧
      namesIn front = namesOf folder ∧
      ((folder.join name).text.toList.head? = some '/' ↔ folder.text.toList.head? = some '/') := by
  have hstarts : name.startsWith "/" = false := by
    rw [← Bool.not_eq_true, String.startsWith_string_iff]
    intro hbegins
    exact hslash (hbegins.subset List.mem_cons_self)
  have hhead : name.toList.head? ≠ some '/' := fun h => hslash (List.mem_of_head? h)
  unfold Path.join
  rw [hstarts, Bool.false_or]
  by_cases hempty : folder.text.isEmpty = true
  · rw [if_pos hempty]
    rw [String.isEmpty_iff] at hempty
    have htext : folder.text.toList = [] := by rw [hempty]; rfl
    refine ⟨[], rfl, .inl rfl, ?_, ?_⟩
    · rw [namesOf, htext]
      rfl
    · rw [htext]
      exact ⟨fun h => absurd h hhead, nofun⟩
  · rw [if_neg hempty]
    obtain ⟨c, cs, hfirst⟩ : ∃ c cs, folder.text.toList = c :: cs := by
      refine List.exists_cons_of_ne_nil fun hnil => hempty ?_
      rw [String.toList_eq_nil_iff] at hnil
      rw [hnil]
      rfl
    by_cases hends : folder.text.endsWith "/" = true
    · rw [if_pos hends]
      rw [String.endsWith_eq_endsWith_toSlice, String.Slice.endsWith_string_iff] at hends
      obtain ⟨more, hmore⟩ := hends
      have hmore : folder.text.toList = more ++ ['/'] := by
        rw [String.copy_toSlice] at hmore
        exact hmore.symm
      refine ⟨folder.text.toList, String.toList_append, ?_, rfl, ?_⟩
      · rw [hmore, List.reverse_append]
        exact .inr ⟨more.reverse, rfl⟩
      · show (folder.text ++ name).toList.head? = some '/' ↔ _
        rw [String.toList_append, hfirst]
        exact Iff.rfl
    · rw [if_neg hends]
      refine ⟨folder.text.toList ++ ['/'], by simp, ?_, ?_, ?_⟩
      · exact .inr ⟨folder.text.toList.reverse, by simp⟩
      · exact (namesIn_append_slash _ []).trans (List.append_nil _)
      · show (folder.text ++ "/" ++ name).toList.head? = some '/' ↔ _
        rw [String.toList_append, String.toList_append, hfirst]
        exact Iff.rfl

/-- **A name in a folder is of the place that it leads to from there.** -/
theorem place_join (hname : name.toList ≠ []) (folder : Path) :
    t.place (folder.join name) = step (t.place folder) name := by
  obtain ⟨front, htext, hfront, hnames, hhead⟩ := exists_front_join hslash folder
  have horigin : t.origin (folder.join name) = t.origin folder := by
    rw [origin, origin]
    simp only [hhead]
  have hlast := Path.lastName_append_of_front hslash hfront
  have hsplit := namesIn_eq_concat (r := name.toList.reverse ++ front.reverse) (by rwa [hlast])
  rw [hlast, Path.dropWhile_append_of_front hslash hfront, List.reverse_append,
    List.reverse_reverse, List.reverse_reverse, hnames, String.ofList_toList, ← htext] at hsplit
  have hnames' : namesOf (folder.join name) = namesOf folder ++ [name] := hsplit
  rw [place, hnames', horigin, List.foldl_append]
  rfl

/-- It is the last name of its path. -/
theorem lastName_join (folder : Path) : lastName (folder.join name).reversed = name.toList := by
  obtain ⟨front, htext, hfront, -, -⟩ := exists_front_join hslash folder
  rw [Path.reversed, htext, List.reverse_append]
  exact Path.lastName_append_of_front hslash hfront

end Joins

/-! ## Outputs -/

section Outputs

variable {folder? : Option Path} {extension : String}

/-- The output of a source has its name in its folder. -/
theorem output_eq (source : Path) (folder? : Option Path) (extension : String) :
    source.output folder? extension =
      (folder?.getD source.parts.folder).join (source.outputName extension) := rfl

/-- A file that has a name has a stem, which is that of its name. -/
theorem toList_stem (hname : source.name? = some name) :
    source.parts.stem.toList = (cutName name).1 := by
  rw [Path.parts, Path.stem?, hname]
  exact String.toList_ofList

/-- There is no `/` in a stem. -/
theorem not_mem_stem (source : Path) : '/' ∉ source.parts.stem.toList := by
  cases hname : source.name? with
  | none =>
    have hstem : source.parts.stem = "" := by
      rw [Path.parts, Path.stem?, hname]
      rfl
    simp [hstem]
  | some name =>
    obtain ⟨hlast, -⟩ := Path.lastName_of_name? hname
    rw [toList_stem hname]
    intro hmem
    refine Path.not_mem_lastName (dropIdle source.reversed) ?_
    rw [hlast]
    exact (Path.cutName_fst_prefix name).subset hmem

variable (hslash : '/' ∉ extension.toList)
include hslash

theorem not_mem_outputName (source : Path) : '/' ∉ (source.outputName extension).toList := by
  rw [Path.toList_outputName, List.mem_append, List.mem_cons, not_or, not_or]
  exact ⟨not_mem_stem source, by decide, hslash⟩

/-- The output of a source ends in its name. -/
theorem lastName_output (source : Path) (folder? : Option Path) :
    lastName (source.output folder? extension).reversed = (source.outputName extension).toList :=
  lastName_join (not_mem_outputName hslash source) _

/-- If its path is of a file, then of this name. -/
theorem name?_output {found : List Char} (hname : source.name? = some name)
    (h : (source.output folder? extension).name? = some found) :
    found = (source.outputName extension).toList := by
  obtain ⟨hfound, -⟩ := Path.lastName_of_name? h
  obtain ⟨-, hproper, -⟩ := Path.lastName_of_name? hname
  have hlast := lastName_output hslash source folder?
  have hlong : 1 < (lastName (source.output folder? extension).reversed).length := by
    have hpos := List.length_pos_iff.2 (Path.cutName_fst_ne_nil hproper.1)
    rw [hlast, Path.toList_outputName, toList_stem hname, List.length_append, List.length_cons]
    omega
  have hidle : dropIdle (source.output folder? extension).reversed =
      (source.output folder? extension).reversed := by
    refine Path.dropIdle_of_lastName (List.ne_nil_of_length_pos (by omega)) ?_
    intro hdot
    rw [hdot] at hlong
    simp at hlong
  rw [← hfound, hidle, hlast]

/-- **An output is of its name in its folder**, if a file can have this name. -/
theorem place_output (hnames : Names (source.outputName extension).toList) :
    t.place (source.output folder? extension) =
      t.place (folder?.getD source.parts.folder) ++ [source.outputName extension] := by
  have hstep := step_of_names hnames (t.place (folder?.getD source.parts.folder))
  rw [String.ofList_toList] at hstep
  rw [output_eq, place_join (not_mem_outputName hslash source) hnames.1, hstep]

/-- **An output takes the place of its source** when that has the same extension and is in
a folder of the same place. -/
theorem place_output_eq_place (hnames : Names (source.outputName extension).toList)
    (hname : source.name? = some name) :
    t.place (source.output folder? extension) = t.place source ↔
      source.extension? = some extension.toList ∧
        t.place (folder?.getD source.parts.folder) = t.place source.parts.folder := by
  have hsame : source.outputName extension = String.ofList name ↔
      source.extension? = some extension.toList := by
    rw [Path.extension?, hname, Option.bind_some, ← Path.stem_append_eq_iff, ← toList_stem hname,
      ← Path.toList_outputName, ← String.toList_inj, String.toList_ofList]
  rw [place_output hslash hnames, place_of_parent hname (exists_parent hname)]
  constructor
  · intro heq
    obtain ⟨hfolder, hlast⟩ := List.append_inj' heq rfl
    exact ⟨hsame.1 (List.cons.inj hlast).1, hfolder⟩
  · rintro ⟨hextension, hfolder⟩
    rw [hfolder, hsame.2 hextension]

/-- **Two outputs have one place** when their stems are the same and their folders have one. -/
theorem place_output_eq_place_output (hp : Names (p.outputName extension).toList)
    (hq : Names (q.outputName extension).toList) :
    t.place (p.output folder? extension) = t.place (q.output folder? extension) ↔
      p.parts.stem = q.parts.stem ∧
        (folder? = none → t.place p.parts.folder = t.place q.parts.folder) := by
  have hsame : p.outputName extension = q.outputName extension ↔ p.parts.stem = q.parts.stem := by
    rw [← String.toList_inj, Path.toList_outputName, Path.toList_outputName,
      List.append_cancel_right_eq, String.toList_inj]
  have hfolder : t.place (folder?.getD p.parts.folder) = t.place (folder?.getD q.parts.folder) ↔
      (folder? = none → t.place p.parts.folder = t.place q.parts.folder) := by
    cases folder? <;> simp
  rw [place_output hslash hp, place_output hslash hq, ← hsame, ← hfolder]
  constructor
  · intro heq
    obtain ⟨hfolders, hlast⟩ := List.append_inj' heq rfl
    exact ⟨(List.cons.inj hlast).1, hfolders⟩
  · rintro ⟨hnames, hfolders⟩
    rw [hfolders, hnames]

/-- **With another extension that has a point in it, an output never takes the place of its
source**, where a file can be there. -/
theorem place_withExtension_output_ne {other : String} (hother : '/' ∉ other.toList)
    (hpoint : '.' ∈ other.toList) (hname : source.name? = some name)
    (hnames : Names (lastName ((source.output folder? extension).withExtension other).reversed)) :
    t.place ((source.output folder? extension).withExtension other) ≠ t.place source := by
  obtain ⟨found, hfound, -⟩ := Path.lastName_withExtension_ne hother hpoint hnames
  have hlast := Path.lastName_withExtension hfound hother hnames
  obtain ⟨-, hproper, -⟩ := Path.lastName_of_name? hname
  rw [name?_output hslash hname hfound, Path.toList_outputName, toList_stem hname] at hlast
  obtain ⟨folder, hplace⟩ := exists_place (t := t) hname
  obtain ⟨folder', hplace'⟩ := exists_place (t := t) (Path.name?_of_names hnames)
  rw [hplace, hplace', hlast]
  intro heq
  obtain ⟨-, hsame⟩ := List.append_inj' heq rfl
  exact Path.stem_append_append_ne hproper.1 hpoint _
    (String.ofList_injective (List.cons.inj hsame).1)

end Outputs

end FileTree

end MapDocument
