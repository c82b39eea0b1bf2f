import MapDocument.Catalog.Basic
import MapDocument.Proofs.Scene.Report
/-!
# Journals — all questions are answered alike

A journal is built from notes and children, and a child without a note anywhere in it
is not attached, so the journals that can be built are those that have no empty journal
below the root (`built_iff`); what a node writes when it is judged is such a journal
whatever type of nodes it is of. What a journal is asked for is then told by the list
of all its notes: how many there are, how many are shown from a threshold on, and which
of them is gravest.
-/

namespace MapDocument

namespace Journal

variable {j child : Journal} {threshold : Severity}

/-! ## Journals that can be built -/

/-- The journals that are built by adding notes, children, and the journals that nodes
fill in the same ways when they are judged. -/
inductive Built : Journal → Prop
  | empty (title : String) : Built (empty title)
  | note {j : Journal} (h : Built j) (n : Note) : Built (j.note n)
  | addChild {j child : Journal} (h : Built j) (hchild : Built child) : Built (j.addChild child)
  | inspectChild {j : Journal} {α : Type} [Inspect α] (h : Built j) (title : String) (x : α)
      (hx : Built ((Journal.empty title).record (Inspect.findings x))) :
      Built (j.inspectChild title x)

/-- An empty child is not attached. -/
theorem addChild_of_isEmpty (h : child.isEmpty = true) (j : Journal) : j.addChild child = j :=
  if_pos h

/-- Any other child comes last. -/
theorem addChild_mk (h : child.isEmpty = false) (title : String) (notes : List Note)
    (children : List Journal) :
    (mk title notes children).addChild child = mk title notes (children ++ [child]) :=
  if_neg (by rw [h]; decide)

/-- Below the root of a journal that is given a child are the child, unless it is empty,
and what is below that. -/
theorem pruned_addChild (h : ∀ k ∈ j.inner, k.isEmpty = false)
    (hchild : ∀ k ∈ child.inner, k.isEmpty = false) :
    ∀ k ∈ (j.addChild child).inner, k.isEmpty = false := by
  obtain ⟨title, notes, children⟩ := j
  cases hempty : child.isEmpty with
  | true => rwa [addChild_of_isEmpty hempty]
  | false =>
    rw [inner] at h
    rw [addChild_mk hempty, inner, innerOf_append, innerOf, innerOf, List.append_nil,
      List.forall_mem_append, List.forall_mem_cons]
    exact ⟨h, hempty, hchild⟩

/-- No journal that was built has an empty one below its root. -/
theorem Built.pruned (h : Built j) : ∀ k ∈ j.inner, k.isEmpty = false := by
  induction h with
  | empty title => exact nofun
  | @note j h n ih =>
    obtain ⟨title, notes, children⟩ := j
    exact ih
  | addChild _ _ ih ihchild => exact pruned_addChild ih ihchild
  | inspectChild _ title x _ ih ihx => exact pruned_addChild ih ihx

/-- Notes can be added one after the other. -/
theorem Built.append_notes {title : String} {notes : List Note} {children : List Journal}
    (h : Built (mk title notes children)) (more : List Note) :
    Built (mk title (notes ++ more) children) := by
  induction more generalizing notes with
  | nil => rwa [List.append_nil]
  | cons n more ih =>
    have hall := ih (h.note n)
    rwa [List.append_assoc, List.singleton_append] at hall

mutual

/-- A journal without an empty one below its root can be built. -/
theorem built_of_pruned : ∀ j : Journal, (∀ k ∈ j.inner, k.isEmpty = false) → Built j
  | mk title notes children, h =>
    built_append children ((Built.empty title).append_notes notes) h

/-- Children that are not empty, nor have an empty one below them, can be added. -/
theorem built_append {title : String} {notes : List Note} {children : List Journal} :
    ∀ js : List Journal, Built (mk title notes children) →
      (∀ k ∈ innerOf js, k.isEmpty = false) → Built (mk title notes (children ++ js))
  | [], h, _ => by rwa [List.append_nil]
  | child :: rest, h, hjs => by
    rw [innerOf, List.forall_mem_append, List.forall_mem_cons] at hjs
    obtain ⟨⟨hempty, hchild⟩, hrest⟩ := hjs
    have hfirst := h.addChild (built_of_pruned child hchild)
    rw [addChild_mk hempty] at hfirst
    have hall := built_append rest hfirst hrest
    rwa [List.append_assoc, List.singleton_append] at hall

end

/-- **The journals that can be built are those without an empty one below the root.** -/
theorem built_iff : Built j ↔ ∀ k ∈ j.inner, k.isEmpty = false :=
  ⟨Built.pruned, built_of_pruned j⟩

/-! ## Counts -/

/-- From information on, all notes count. -/
theorem notesFrom_info (notes : List Note) : notesFrom .info notes = notes :=
  List.filter_eq_self.2 fun n _ => decide_eq_true (Severity.info_le n.severity)

mutual

/-- All notes of the tree are counted. -/
theorem noteCount_eq : ∀ j : Journal, j.noteCount = j.allNotes.length
  | mk title notes children => by
    rw [noteCount, noteCountOf_eq children, allNotes, List.length_append]

theorem noteCountOf_eq : ∀ js : List Journal, noteCountOf js = (allNotesOf js).length
  | [] => rfl
  | child :: rest => by
    rw [noteCountOf, noteCount_eq child, noteCountOf_eq rest, allNotesOf, List.length_append]

end

mutual

/-- **The notes that are shown are those that count**: what is left out has none. -/
theorem renderAt_snd (threshold : Severity) : ∀ (depth : Nat) (j : Journal),
    (renderAt threshold depth j).2 = countFrom threshold j
  | depth, mk title notes children => by
    rw [countFrom, ← renderAll_snd threshold (depth + 1)]
    rfl

theorem renderAll_snd (threshold : Severity) : ∀ (depth : Nat) (js : List Journal),
    (renderAll threshold depth js).2 = countFromIn threshold js
  | depth, [] => rfl
  | depth, child :: rest => by
    have hchild := renderAt_snd threshold depth child
    have hrest := renderAll_snd threshold depth rest
    unfold renderAll countFromIn
    by_cases hcount : 0 < countFrom threshold child
    · simp only [if_pos hcount]
      rw [hchild, hrest]
    · simp only [if_neg hcount]
      omega

end

/-- As many notes are shown as there are from the threshold on. -/
theorem render_snd (threshold : Severity) (j : Journal) :
    (j.render threshold).2 = (notesFrom threshold j.allNotes).length := by
  rw [render, renderAt_snd, countFrom_eq]

/-- Some note is shown if the gravest is at least as grave as the threshold. -/
theorem any_worst_iff (threshold : Severity) (j : Journal) :
    j.worst.any (threshold ≤ ·) = true ↔ 0 < (j.render threshold).2 := by
  rw [(gravest_worst j).any_iff, render_snd, List.length_pos_iff_exists_mem]
  simp only [notesFrom, List.mem_filter, decide_eq_true_eq]

/-- An error is the gravest of all. -/
theorem hasError_eq_any (j : Journal) : j.hasError = j.worst.any (.error ≤ ·) := by
  unfold hasError
  rcases j.worst with _ | s
  · rfl
  · cases s <;> rfl

/-- A child adds its notes, and has none to add where it is not attached. -/
theorem allNotes_addChild (j child : Journal) :
    (j.addChild child).allNotes = j.allNotes ++ child.allNotes := by
  obtain ⟨title, notes, children⟩ := j
  cases hempty : child.isEmpty with
  | true => rw [addChild_of_isEmpty hempty, (isEmpty_iff child).1 hempty, List.append_nil]
  | false =>
    rw [addChild_mk hempty, allNotes, allNotes, allNotesOf_append, allNotesOf, allNotesOf,
      List.append_nil, List.append_assoc]

end Journal

/-! ## Judged nodes -/

namespace Findings

/-- Own notes are no journals. -/
theorem pruned_noteIf (condition : Bool) (severity : Severity) (message : String) :
    (noteIf condition severity message).Pruned := by
  have hinside : Inside (fun _ : Unit => []) (noteIf condition severity message) [] :=
    inside_noteIf condition severity message
  exact hinside.pruned

theorem pruned_note (severity : Severity) (message : String) : (note severity message).Pruned :=
  pruned_noteIf true severity message

/-- What is found about a list is kept as what is found about its items is. -/
theorem pruned_indexed {α : Type} [Inspect α] (h : ∀ x : α, (Inspect.findings x).Pruned)
    (index : Nat) (xs : List α) : (indexed index xs).Pruned := by
  induction xs generalizing index with
  | nil => exact nofun
  | cons x xs ih => exact ((h x).under _).append (ih (index + 1))

end Findings

/-- The values of a choice say what their candidates do. -/
theorem ChoiceType.pruned {c : ChoiceType} {judge : Inspect c.Carrier}
    (h : c.inspect? = some judge) (s : c.Carrier) : (judge.findings s).Pruned := by
  cases c with
  | scalar => cases h
  | checked =>
    cases h
    cases s with
    | positive p => exact Findings.pruned_noteIf _ _ _
    | label l => exact Findings.pruned_noteIf _ _ _
  | meshSource =>
    cases h
    exact (MeshSource.inside s).pruned

/-- **What a node has to say is in journals none of which is empty**, whatever type of nodes
it is of. -/
theorem NodeType.pruned {t : NodeType} {judge : Inspect t.Carrier} (h : t.inspect? = some judge)
    (x : t.Carrier) : (judge.findings x).Pruned := by
  induction t with
  | list item ih =>
    obtain ⟨judge, hitem, rfl⟩ := Option.map_eq_some_iff.1 h
    exact Findings.pruned_indexed (ih hitem) 0 x
  | variant c =>
    obtain ⟨judge, hchoice, rfl⟩ := Option.map_eq_some_iff.1 h
    cases x with
    | none => exact Findings.pruned_note _ _
    | some s => exact c.pruned hchoice s
  | bare c => exact c.pruned h x
  | rectMesh => cases h; exact (MeshSource.inside (.rect x)).pruned
  | heightGrid => cases h; exact (MeshSource.inside (.heightGrid x)).pruned
  | vertexArray => cases h; exact (MeshSource.inside (.vertexArray x)).pruned
  | material => cases h; exact (Material.accounts x).pruned
  | renderUnit => cases h; exact (RenderUnit.accounts x).pruned
  | transform => cases h; exact (Transform.accounts x).pruned
  | staticActor => cases h; exact (StaticActor.accounts x).pruned
  | embeddedModel => cases h; exact (EmbeddedModel.accounts x).pruned
  | importedModel => cases h; exact (ImportedModel.accounts x).pruned
  | waterPlane => cases h; exact (WaterPlane.accounts x).pruned
  | pointLight => cases h; exact (PointLight.accounts x).pruned
  | metadata => cases h; exact (Metadata.accounts x).pruned
  | mapChunk => cases h; exact (MapChunk.accounts x).pruned
  | positive => cases h; exact Findings.pruned_noteIf _ _ _
  | label => cases h; exact Findings.pruned_noteIf _ _ _
  | single | int32 | bool | vec3 | quaternion | identifier | floatBuffer | aabb | sphere | triangle
  | triangleSoup | lamp | tagged | nothing => cases h

namespace Journal

/-- **All questions about a journal are answered alike.** In a journal that was built by adding
notes, children and the journals of judged nodes, as many notes are shown as there are in the
whole tree from the threshold on; all are counted, and none is there just if the journal is empty,
and just if there is no worst; the worst is the gravest that there is, an error just if an error
is shown, and a warning or worse just if one is shown from warnings on. No journal below the
root is empty, and a child adds to what is shown just what it shows itself. All nodes that judge
themselves fill journals that are built so. -/
theorem queries_agree :
    (∀ j : Journal, Built j → ∀ threshold : Severity,
      (j.render threshold).2 = (j.allNotes.filter (threshold ≤ ·.severity)).length ∧
      j.noteCount = (j.render .info).2 ∧
      (j.isEmpty = true ↔ j.noteCount = 0) ∧
      (j.noteCount = 0 ↔ j.worst = none) ∧
      (∀ s, j.worst = some s ↔
        (∃ n ∈ j.allNotes, n.severity = s) ∧ ∀ n ∈ j.allNotes, n.severity ≤ s) ∧
      (j.hasError = true ↔ 0 < (j.render .error).2) ∧
      (j.hasWarnOrWorse = true ↔ 0 < (j.render .warn).2) ∧
      (∀ k ∈ j.inner, k.isEmpty = false) ∧
      ∀ child : Journal, ((j.addChild child).render threshold).2 =
        (j.render threshold).2 + (child.render threshold).2) ∧
    ∀ (t : NodeType) (judge : Inspect t.Carrier), t.inspect? = some judge →
      ∀ (title : String) (x : t.Carrier),
        Built ((Journal.empty title).record (judge.findings x)) := by
  refine ⟨fun j h threshold => ⟨?_, ?_, ?_, ?_, ?_, ?_, ?_, ?_, ?_⟩, ?_⟩
  · exact render_snd threshold j
  · rw [noteCount_eq, render_snd, notesFrom_info]
  · rw [isEmpty_iff, noteCount_eq, List.length_eq_zero_iff]
  · rw [(gravest_worst j).eq_none_iff, noteCount_eq, List.length_eq_zero_iff]
  · exact fun s => (gravest_worst j).eq_some_iff
  · rw [hasError_eq_any, any_worst_iff]
  · exact any_worst_iff .warn j
  · exact h.pruned
  · intro child
    rw [render_snd, render_snd, render_snd, allNotes_addChild, notesFrom_append, List.length_append]
  · intro t judge hjudge title x
    exact built_of_pruned _ (NodeType.pruned hjudge x)

/-- A model with a warning, a child that has nothing to say, and an error two children down. -/
def nested : Journal :=
  (((empty "model").note ⟨.warn, "model has no name"⟩).addChild (empty "static_actors")).addChild
    ((empty "render_units").addChild ((empty "index 0").note ⟨.error, "texture scale x is zero"⟩))

/-- With a nameless label judged as one more child, three notes are shown from warnings on, and
an error is worst; the journal that the label fills is built as the others are. -/
theorem queries_agree_nested :
    ((nested.inspectChild "label" (Record.initial : Label)).render .warn).2 = 3 ∧
    (nested.inspectChild "label" (Record.initial : Label)).worst = some .error ∧
    Built ((Journal.empty "label").record (Inspect.findings (Record.initial : Label))) := by
  have hlabel : Built ((Journal.empty "label").record (Inspect.findings (Record.initial : Label))) :=
    queries_agree.2 .label _ rfl "label" Record.initial
  have hnested : Built nested :=
    (((Built.empty _).note _).addChild (.empty _)).addChild ((Built.empty _).addChild
      ((Built.empty _).note _))
  have hagree := queries_agree.1 _ (hnested.inspectChild "label" _ hlabel) .warn
  refine ⟨?_, ?_, hlabel⟩
  · rw [hagree.1]
    decide
  · exact (hagree.2.2.2.2.1 .error).2 (by decide)

end Journal

end MapDocument
