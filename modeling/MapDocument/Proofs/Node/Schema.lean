import MapDocument.Proofs.Node.Load
import MapDocument.Proofs.Node.Reload
/-!
# Nodes — schemas

A schema says how a node is built up from leaves by records, lists and
variants, and which value each part of it has before it is loaded: a field
has its default, an item of a list the default of its type, and the value of
a variant the default of its candidate. What a text form is to be held
against is a schema, and is defined by recursion on it; what holds of the
loads of whatever a schema describes is proved by induction on it.
-/

namespace MapDocument

/-! ## Leaves -/

/-- A computation that does not say where it fails. -/
def Placeless {α : Type} (result : Except Error α) : Prop :=
  ∀ ⦃e : Error⦄, result = .error e → e.path = []

section Placeless

variable {α β : Type}

theorem placeless_ok (a : α) : Placeless (.ok a : Except Error α) := nofun

theorem placeless_of (fault : Fault) : Placeless (.error (.of fault) : Except Error α) := by
  intro e h
  cases h
  rfl

/-- A sequence does not say where it fails if its steps do not. -/
theorem Placeless.bind {x : Except Error α} {f : α → Except Error β} (hx : Placeless x)
    (hf : ∀ a, Placeless (f a)) : Placeless (x >>= f) := by
  intro e h
  rcases bind_eq_error.1 h with h | ⟨a, -, h⟩
  · exact hx h
  · exact hf a h

theorem placeless_mapM {f : α → Except Error β} (hf : ∀ a, Placeless (f a)) (xs : List α) :
    Placeless (xs.mapM f) := by
  induction xs with
  | nil => exact placeless_ok []
  | cons x xs ih =>
    rw [List.mapM_cons]
    exact (hf x).bind fun y => ih.bind fun ys => placeless_ok (y :: ys)

end Placeless

namespace Json

theorem placeless_asSingle (j : Json) : Placeless j.asSingle := by
  unfold asSingle
  split
  · dsimp only
    split
    · exact placeless_ok _
    · exact placeless_of _
  · exact placeless_of _

theorem placeless_asInt32 (j : Json) : Placeless j.asInt32 := by
  unfold asInt32
  split
  · exact placeless_of _
  · split
    · exact placeless_ok _
    · exact placeless_of _

theorem placeless_asBool (j : Json) : Placeless j.asBool := by
  cases j with
  | bool b => exact placeless_ok b
  | _ => exact placeless_of _

theorem placeless_asString (j : Json) : Placeless j.asString := by
  cases j with
  | string s => exact placeless_ok s
  | _ => exact placeless_of _

theorem placeless_asArray (what : String) (j : Json) : Placeless (j.asArray what) := by
  cases j with
  | array items => exact placeless_ok items
  | _ => exact placeless_of _

theorem placeless_asSingles (what : String) (count : Nat) (j : Json) :
    Placeless (j.asSingles what count) := by
  refine (placeless_asArray what j).bind fun items => ?_
  split
  · exact placeless_mapM placeless_asSingle items
  · exact placeless_of _

theorem placeless_asVec3 (j : Json) : Placeless j.asVec3 := by
  refine (placeless_asSingles "vec3" 3 j).bind fun found => ?_
  split
  · exact placeless_ok _
  · exact placeless_of _

theorem placeless_asQuaternion (j : Json) : Placeless j.asQuaternion := by
  refine (placeless_asSingles "quat" 4 j).bind fun found => ?_
  split
  · exact placeless_ok _
  · exact placeless_of _

end Json

theorem Identifier.placeless_ofText (text : String) : Placeless (Identifier.ofText text) := by
  unfold ofText
  split
  · exact placeless_ok _
  · exact placeless_of _

theorem FloatBuffer.placeless_ofText (text : String) : Placeless (FloatBuffer.ofText text) := by
  unfold ofText
  dsimp only
  split
  · unfold ofBytes
    split
    · exact placeless_ok _
    · exact placeless_of _
  · exact placeless_of _

/-- What is assigned as a whole is a leaf if its reading does not say where it fails. -/
theorem placeless_eval_assign {α : Type} {read : Json → Except Error α}
    (h : ∀ j, Placeless (read j)) (j : Json) (x : α) :
    Placeless (Edit.eval (Edit.assign (read j)) x) := by
  rw [Edit.eval_assign]
  exact h j

/-! ## Schemas -/

/-- The default of the field comes back from its text form, whatever was held. -/
def Field.Restored (f : Field) : Prop :=
  ∀ x, Edit.eval (Node.load (Node.toJson f.initial)) x = .ok f.initial

/-- A record whose fields have names of their own and defaults that come back. -/
structure Record.Restoring (σ : Type) [Record σ] : Prop where
  nodup_names : (Record.fieldNames σ).Nodup
  restored : ∀ f ∈ Record.fields σ, f.Restored

/-- A choice whose candidates have defaults that come back in fresh nodes. -/
def Choice.Restoring (σ : Type) [Choice σ] : Prop :=
  ∀ c ∈ Choice.candidates σ,
    Node.ofJson (Node.toJson (Node.initial : c.Value)) = .ok (Node.initial : c.Value)

/-- How a node that has a given value before it is loaded is built up. -/
class inductive Node.Schema : (α : Type) → [Node α] → α → Type 1
  /-- A node without nodes inside: where it is refused, it is refused as a whole. -/
  | leaf {α : Type} [Node α] (x : α)
      (whole : ∀ j, Placeless (Edit.eval (Node.load j) x)) :
      Node.Schema α x
  | record {σ : Type} [Record σ] (law : Record.Restoring σ)
      (fields : (i : Fin (Record.fields σ).length) →
        Node.Schema ((Record.fields σ).get i).Value ((Record.fields σ).get i).initial) :
      Node.Schema σ Record.initial
  | list {α : Type} [Node α] (item : Node.Schema α Node.initial) (xs : List α) :
      Node.Schema (List α) xs
  | variant {σ : Type} [Choice σ] (law : Choice.Restoring σ)
      (candidates : (i : Fin (Choice.candidates σ).length) →
        Node.Schema ((Choice.candidates σ).get i).Value Node.initial) (v : Option σ) :
      Node.Schema (Option σ) v

instance : (x : Single) → Node.Schema Single x :=
  fun x => .leaf x fun j => placeless_eval_assign Json.placeless_asSingle j x

instance : (n : Int32) → Node.Schema Int32 n :=
  fun n => .leaf n fun j => placeless_eval_assign Json.placeless_asInt32 j n

instance : (b : Bool) → Node.Schema Bool b :=
  fun b => .leaf b fun j => placeless_eval_assign Json.placeless_asBool j b

instance : (a : Vec3) → Node.Schema Vec3 a :=
  fun a => .leaf a fun j => placeless_eval_assign Json.placeless_asVec3 j a

instance : (a : Quaternion) → Node.Schema Quaternion a :=
  fun a => .leaf a fun j => placeless_eval_assign Json.placeless_asQuaternion j a

instance : (name : Identifier) → Node.Schema Identifier name := fun name =>
  .leaf name fun j => placeless_eval_assign
    (fun j => (Json.placeless_asString j).bind Identifier.placeless_ofText) j name

instance : (buffer : FloatBuffer) → Node.Schema FloatBuffer buffer := fun buffer =>
  .leaf buffer fun j => placeless_eval_assign
    (fun j => (Json.placeless_asString j).bind FloatBuffer.placeless_ofText) j buffer

/-- A record has the schema of its default in fresh nodes too. -/
instance Node.Schema.ofInitial {σ : Type} [Record σ] [schema : Node.Schema σ Record.initial] :
    Node.Schema σ (Node.initial : σ) :=
  schema

instance Node.Schema.ofItem {α : Type} [Node α] [item : Node.Schema α Node.initial]
    (xs : List α) : Node.Schema (List α) xs :=
  .list item xs

/-! ## Fields and candidates -/

/-- Schemas of fields, each with its default. -/
class Field.Schemas (fs : List Field) where
  value : (i : Fin fs.length) → Node.Schema (fs.get i).Value (fs.get i).initial

instance Field.Schemas.nil : Field.Schemas [] := ⟨nofun⟩

instance Field.Schemas.cons {α : Type} [Node α] {name : String} {initial : α}
    [head : Node.Schema α initial] {fs : List Field} [tail : Field.Schemas fs] :
    Field.Schemas (field name initial :: fs) where
  value
    | ⟨0, _⟩ => head
    | ⟨i + 1, h⟩ => tail.value ⟨i, Nat.lt_of_succ_lt_succ h⟩

/-- Schemas of the values of candidates, each with the default of its type. -/
class Candidate.Schemas (cs : List Candidate) where
  value : (i : Fin cs.length) → Node.Schema (cs.get i).Value Node.initial

instance Candidate.Schemas.nil : Candidate.Schemas [] := ⟨nofun⟩

instance Candidate.Schemas.cons {α : Type} [Node α] {name : String}
    [head : Node.Schema α Node.initial] {cs : List Candidate} [tail : Candidate.Schemas cs] :
    Candidate.Schemas (candidate name α :: cs) where
  value
    | ⟨0, _⟩ => head
    | ⟨i + 1, h⟩ => tail.value ⟨i, Nat.lt_of_succ_lt_succ h⟩

/-- Defaults have binary forms one by one where they have them together. -/
theorem Field.encode_initial_of_encodeAll {fs : List Field} {p : Bytes}
    (h : encodeAll fs (initials fs) = .ok p) : ∀ f ∈ fs, ∃ q, Node.encode f.initial = .ok q := by
  induction fs generalizing p with
  | nil => simp
  | cons g fs ih =>
    obtain ⟨q, r, hg, hfs, -⟩ := append_eq_ok.1 h
    intro f hf
    rcases List.mem_cons.1 hf with rfl | hf
    · exact ⟨q, locating_eq_ok.1 hg⟩
    · exact ih hfs f hf

/-- Defaults that have binary forms come back. -/
theorem Record.restoring {σ : Type} [Record σ] (nodup_names : (Record.fieldNames σ).Nodup)
    (encodes : (Record.encodeFields (Record.initial : σ)).isOk = true)
    (fields : ∀ f ∈ Record.fields σ, Node.ReloadsEncoded f.Value) : Record.Restoring σ where
  nodup_names := nodup_names
  restored f hf x := by
    obtain ⟨p, hp⟩ := isOk_iff.1 encodes
    rw [encodeFields, initial, split_join] at hp
    obtain ⟨q, hq⟩ := Field.encode_initial_of_encodeAll hp f hf
    exact Edit.eval_eq_ok.2 (fields f hf hq x)

/-- Candidates that come back in fresh nodes have defaults that do. -/
theorem Choice.restoring {σ : Type} [Choice σ]
    (candidates : ∀ c ∈ Choice.candidates σ, Node.Reloads c.Value) : Choice.Restoring σ :=
  fun c hc => Edit.eval_eq_ok.2 (candidates c hc).initial

/-- The schema of a record whose fields have schemas. -/
@[reducible] def Node.Schema.ofFields {σ : Type} [Record σ] (law : Record.Restoring σ)
    (fields : Field.Schemas (Record.fields σ) := by dsimp only [Record.fields]; infer_instance) :
    Node.Schema σ Record.initial :=
  .record law fields.value

/-- The schema of a variant whose candidates have schemas. -/
@[reducible] def Node.Schema.ofCandidates {σ : Type} [Choice σ] (law : Choice.Restoring σ)
    (candidates : Candidate.Schemas (Choice.candidates σ) := by
      dsimp only [Choice.candidates]; infer_instance) (v : Option σ) :
    Node.Schema (Option σ) v :=
  .variant law candidates.value v

end MapDocument
