/-!
# Journals — what validation found

A journal is a titled tree of notes. Every node that has something to say
about itself writes notes, and every node inside it gets a child journal
titled after its place. A child without a note anywhere in it is never
attached, so a journal shows exactly the places where something was found.
-/

namespace MapDocument

/-- How grave a note is. -/
inductive Severity
  | info
  | warn
  | error
deriving DecidableEq, Repr

namespace Severity

/-- The label of a severity. -/
def label : Severity → String
  | info => "INFO"
  | warn => "WARN"
  | error => "ERROR"

/-- Place in the order from harmless to grave. -/
def rank : Severity → Nat
  | info => 0
  | warn => 1
  | error => 2

instance : LE Severity := ⟨fun s t => s.rank ≤ t.rank⟩

instance : DecidableLE Severity := fun s t => inferInstanceAs (Decidable (s.rank ≤ t.rank))

/-- The graver of two. -/
def max (s t : Severity) : Severity := if s ≤ t then t else s

/-- The more harmless of two. -/
def min (s t : Severity) : Severity := if s ≤ t then s else t

/-- The graver of two, either of which may be missing. -/
def max? : Option Severity → Option Severity → Option Severity
  | none, t => t
  | s, none => s
  | some s, some t => some (max s t)

end Severity

/-- One thing that was found. -/
structure Note where
  severity : Severity
  message : String
deriving DecidableEq, Repr

/-- A titled report with the reports of the places inside it. -/
inductive Journal
  | mk (title : String) (notes : List Note) (children : List Journal)

namespace Journal

/-- A journal without notes. -/
def empty (title : String) : Journal := mk title [] []

instance : Inhabited Journal := ⟨empty ""⟩

/-- What the journal is about. -/
def title : Journal → String
  | mk title _ _ => title

/-- The notes about the place itself. -/
def notes : Journal → List Note
  | mk _ notes _ => notes

/-- The journals of the places inside. -/
def children : Journal → List Journal
  | mk _ _ children => children

/-! ## Queries -/

mutual
/-- No note anywhere in the journal. -/
def isEmpty : Journal → Bool
  | mk _ notes children => notes.isEmpty && allEmpty children

/-- No note anywhere in the journals. -/
def allEmpty : List Journal → Bool
  | [] => true
  | child :: rest => isEmpty child && allEmpty rest
end

mutual
/-- The gravest severity in the journal. -/
def worst : Journal → Option Severity
  | mk _ notes children =>
    Severity.max? (notes.foldl (fun s n => Severity.max? s (some n.severity)) none)
      (worstOf children)

/-- The gravest severity in the journals. -/
def worstOf : List Journal → Option Severity
  | [] => none
  | child :: rest => Severity.max? (worst child) (worstOf rest)
end

/-- Some note is an error. -/
def hasError (j : Journal) : Bool := j.worst = some .error

/-- Some note is a warning or an error. -/
def hasWarnOrWorse (j : Journal) : Bool := j.worst.any (Severity.warn ≤ ·)

mutual
/-- Number of notes in the journal. -/
def noteCount : Journal → Nat
  | mk _ notes children => notes.length + noteCountOf children

/-- Number of notes in the journals. -/
def noteCountOf : List Journal → Nat
  | [] => 0
  | child :: rest => noteCount child + noteCountOf rest
end

/-- The notes that are at least as grave as a threshold. -/
def notesFrom (threshold : Severity) (notes : List Note) : List Note :=
  notes.filter (threshold ≤ ·.severity)

mutual
/-- Number of notes in the journal that are at least as grave as a threshold. -/
def countFrom (threshold : Severity) : Journal → Nat
  | mk _ notes children => (notesFrom threshold notes).length + countFromIn threshold children

/-- Number of notes in the journals that are at least as grave as a threshold. -/
def countFromIn (threshold : Severity) : List Journal → Nat
  | [] => 0
  | child :: rest => countFrom threshold child + countFromIn threshold rest
end

/-! ## Written form -/

/-- A line of the given depth, indented by tabs. -/
def line (depth : Nat) (text : String) : String :=
  String.ofList (List.replicate depth '\t') ++ text ++ "\n"

/-- How a note is written. -/
def noteText (n : Note) : String := "[" ++ n.severity.label ++ "] " ++ n.message

mutual
/-- The journal as indented lines, and the number of notes among them. Notes
below the threshold are left out, and so are children left without one. -/
def renderAt (threshold : Severity) (depth : Nat) : Journal → String × Nat
  | mk title notes children =>
    let shown := notesFrom threshold notes
    let (inner, count) := renderAll threshold (depth + 1) children
    (line depth title ++ String.join (shown.map fun n => line (depth + 1) (noteText n)) ++ inner,
      shown.length + count)

/-- The journals that have something to show, one after the other. -/
def renderAll (threshold : Severity) (depth : Nat) : List Journal → String × Nat
  | [] => ("", 0)
  | child :: rest =>
    let (text, count) := renderAll threshold depth rest
    if 0 < countFrom threshold child then
      let (childText, childCount) := renderAt threshold depth child
      (childText ++ text, childCount + count)
    else (text, count)
end

/-- The journal as indented lines, one a note, and the number of notes shown. -/
def render (threshold : Severity) (j : Journal) : String × Nat := renderAt threshold 0 j

/-- The journal with all its notes. -/
def text (j : Journal) : String := (j.render .info).1

/-! ## Growth -/

/-- The journal with one more note. -/
def note (j : Journal) (n : Note) : Journal := mk j.title (j.notes ++ [n]) j.children

/-- The journal with one more child, unless the child is empty. -/
def addChild (j child : Journal) : Journal :=
  if child.isEmpty then j else mk j.title j.notes (j.children ++ [child])

end Journal

/-! ## Findings -/

/-- What a node has to say: notes about itself, and the journals of the nodes inside it. -/
structure Findings where
  notes : List Note
  children : List Journal

namespace Findings

/-- Nothing was found. -/
def none : Findings := ⟨[], []⟩

instance : Append Findings := ⟨fun f g => ⟨f.notes ++ g.notes, f.children ++ g.children⟩⟩

/-- A note about the node itself. -/
def note (severity : Severity) (message : String) : Findings := ⟨[⟨severity, message⟩], []⟩

/-- A note about the node itself, if a condition holds. -/
def noteIf (condition : Bool) (severity : Severity) (message : String) : Findings :=
  if condition then note severity message else none

/-- The journal of a node inside, under its title. -/
def under (title : String) (f : Findings) : Findings :=
  let child := Journal.mk title f.notes f.children
  ⟨[], if child.isEmpty then [] else [child]⟩

/-- All findings, one after the other. -/
def all : List Findings → Findings
  | [] => none
  | f :: rest => f ++ all rest

end Findings

/-- The journal with the findings of a node. -/
def Journal.record (j : Journal) (f : Findings) : Journal :=
  mk j.title (j.notes ++ f.notes) (j.children ++ f.children)

/-- The nodes that judge their own content. -/
class Inspect (α : Type) where
  /-- What there is to say about a node and the nodes inside it. -/
  findings : α → Findings

/-- The journal with the findings of a node as a child. -/
def Journal.inspectChild {α : Type} [Inspect α] (j : Journal) (title : String) (x : α) : Journal :=
  j.addChild ((Journal.empty title).record (Inspect.findings x))

/-- The findings about the items of a list, each under its index. -/
def Findings.indexed {α : Type} [Inspect α] : Nat → List α → Findings
  | _, [] => Findings.none
  | i, x :: rest => Findings.under s!"index {i}" (Inspect.findings x) ++ indexed (i + 1) rest

instance Inspect.list {α : Type} [Inspect α] : Inspect (List α) := ⟨Findings.indexed 0⟩

end MapDocument
