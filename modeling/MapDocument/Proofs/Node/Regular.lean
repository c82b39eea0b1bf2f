import MapDocument.Node.Leaf
import MapDocument.Node.List
import MapDocument.Node.Record
import MapDocument.Node.Variant
/-!
# Nodes — how types of nodes are built up

Most types of nodes are built from leaves by records, lists and variants,
and do nothing of their own: their records put nothing right after a load
and write their fields and no more. They are the regular types. What holds
of the leaves, and of whatever is built from types that it holds of, holds
of all regular types by `induction` on `Node.Regular`; the few records with
a habit of their own are left to be looked at one by one.
-/

namespace MapDocument

/-- A record that is no more than its fields, each of which has a name of its
own and a default that can be written. -/
structure Record.Regular (σ : Type) [Record σ] : Prop where
  nodup_names : (Record.fieldNames σ).Nodup := by decide
  settle_eq : ∀ s : σ, Record.settle s = s := by intro _; rfl
  encode_eq : ∀ s : σ, Record.encode s = Record.encodeFields s := by intro _; rfl
  initial_encodes : (Record.encodeFields (Record.initial : σ)).isOk = true := by decide

/-- The types of nodes that are built from leaves by regular records, lists,
and variants whose candidates can be numbered in two bytes. -/
class inductive Node.Regular : (α : Type) → [Node α] → Prop
  | single : Node.Regular Single
  | int32 : Node.Regular Int32
  | bool : Node.Regular Bool
  | vec3 : Node.Regular Vec3
  | quaternion : Node.Regular Quaternion
  | identifier : Node.Regular Identifier
  | floatBuffer : Node.Regular FloatBuffer
  | record {σ : Type} [Record σ] (law : Record.Regular σ)
      (fields : ∀ f ∈ Record.fields σ, Node.Regular f.Value) : Node.Regular σ
  | list {α : Type} [Node α] (item : Node.Regular α) : Node.Regular (List α)
  | variant {σ : Type} [Choice σ] (few : (Choice.candidates σ).length ≤ 0x8000)
      (candidates : ∀ c ∈ Choice.candidates σ, Node.Regular c.Value) : Node.Regular (Option σ)

attribute [instance] Node.Regular.single Node.Regular.int32 Node.Regular.bool Node.Regular.vec3
  Node.Regular.quaternion Node.Regular.identifier Node.Regular.floatBuffer

instance Node.Regular.ofItem {α : Type} [Node α] [item : Node.Regular α] : Node.Regular (List α) :=
  .list item

/-! ## Fields and candidates -/

/-- Fields whose values are of regular types. -/
class Field.Regular (fs : List Field) : Prop where
  value : ∀ f ∈ fs, Node.Regular f.Value

instance Field.Regular.nil : Field.Regular [] := ⟨by simp⟩

instance Field.Regular.cons {α : Type} [Node α] [head : Node.Regular α] {name : String}
    {initial : α} {fs : List Field} [tail : Field.Regular fs] :
    Field.Regular (field name initial :: fs) where
  value f hf := by
    rcases List.mem_cons.1 hf with rfl | hf
    · exact head
    · exact tail.value f hf

/-- Candidates whose values are of regular types. -/
class Candidate.Regular (cs : List Candidate) : Prop where
  value : ∀ c ∈ cs, Node.Regular c.Value

instance Candidate.Regular.nil : Candidate.Regular [] := ⟨by simp⟩

instance Candidate.Regular.cons {α : Type} [Node α] [head : Node.Regular α] {name : String}
    {cs : List Candidate} [tail : Candidate.Regular cs] :
    Candidate.Regular (candidate name α :: cs) where
  value c hc := by
    rcases List.mem_cons.1 hc with rfl | hc
    · exact head
    · exact tail.value c hc

/-- A regular record of fields of regular types is of a regular type. -/
theorem Node.Regular.ofFields {σ : Type} [Record σ] (law : Record.Regular σ := by exact {})
    (fields : Field.Regular (Record.fields σ) := by dsimp only [Record.fields]; infer_instance) :
    Node.Regular σ :=
  .record law fields.value

/-- A variant whose candidates are of regular types is of a regular type. -/
theorem Node.Regular.ofCandidates {σ : Type} [Choice σ]
    (few : (Choice.candidates σ).length ≤ 0x8000 := by decide)
    (candidates : Candidate.Regular (Choice.candidates σ) := by
      dsimp only [Choice.candidates]; infer_instance) :
    Node.Regular (Option σ) :=
  .variant few candidates.value

end MapDocument
