import MapDocument.Node.Basic
import MapDocument.Bytes.Fields
import MapDocument.Journal
/-!
# Nodes — variants

A choice is a type whose values are values of one of several candidate
types, numbered in order; a variant holds a value of a choice, or nothing
until it is set. The text form of a set variant gives the number of the
candidate and the text form of its value, and the binary form puts the
number in two bytes before the value. Once set, a variant stays set.
-/

namespace MapDocument

/-- A candidate of a choice. -/
structure Candidate where
  name : String
  Value : Type
  [node : Node Value]

attribute [instance] Candidate.node

/-- The candidate with a given name. -/
def candidate (name : String) (α : Type) [Node α] : Candidate := { name, Value := α }

/-- A type whose values are values of one of several candidates. -/
class Choice (σ : Type) where
  /-- The candidates in order. -/
  candidates : List Candidate
  /-- Which candidate a value belongs to, and its value there. -/
  split : σ → (i : Fin candidates.length) × (candidates.get i).Value
  /-- The value of a candidate. -/
  join : (i : Fin candidates.length) × (candidates.get i).Value → σ
  join_split : ∀ s, join (split s) = s
  split_join : ∀ x, split (join x) = x

namespace Choice

variable {σ : Type} [Choice σ]

/-- The number of the candidate that a value belongs to. -/
def index (s : σ) : Nat := (split s).1

/-- The names of the candidates in order. -/
def names (σ : Type) [Choice σ] : List String := (candidates σ).map Candidate.name

/-- The default of the candidate with a given number. -/
def initial? (σ : Type) [Choice σ] (i : Nat) : Option σ :=
  if h : i < (candidates σ).length then some (join ⟨⟨i, h⟩, Node.initial⟩) else none

/-- A value with the value of its candidate put back to the default. -/
def reset (s : σ) : σ :=
  let ⟨i, x⟩ := split s
  join ⟨i, Node.reset x⟩

/-- The text form of the value of the candidate. -/
def toJson (s : σ) : Json := Node.toJson (split s).2

/-- Loads the value of the candidate in place; the candidate stays the same. -/
def load (j : Json) : Edit σ Unit := fun s =>
  let ⟨i, x⟩ := split s
  match Node.load j x with
  | .ok _ x => .ok () (join ⟨i, x⟩)
  | .error e x => .error e (join ⟨i, x⟩)

/-- The binary form of the value of the candidate. -/
def encode (s : σ) : Except Error Bytes := Node.encode (split s).2

/-- Same candidate, and equality of content there. -/
def equals (s t : σ) : Bool :=
  let ⟨i, x⟩ := split s
  let ⟨j, y⟩ := split t
  if h : i = j then Node.equals x (h ▸ y) else false

end Choice

/-! ## Variants -/

namespace Variant

variable {σ : Type} [Choice σ]

/-- The number of the candidate of the value held. -/
def index? (v : Option σ) : Option Nat := v.map Choice.index

/-- The text form: null, or the number of the candidate with its data. -/
def toJson : Option σ → Json
  | none => .null
  | some s => .object [("type", .ofInt (Choice.index s)), ("data", Choice.toJson s)]

/-- The default of the candidate that a text form names. -/
def initialOf (σ : Type) [Choice σ] (members : List (String × Json)) : Except Error σ :=
  match members.lookup "type" with
  | none => .error Fault.noTypeIndex
  | some j =>
    match j.toNat? with
    | none => .error (Fault.badTypeIndex j)
    | some i =>
      match Choice.initial? σ i with
      | none => .error (Fault.noSuchCandidate i (Choice.names σ))
      | some s => .ok s

/-- Loads data, if there is any, into the default of a candidate. -/
def loadData (members : List (String × Json)) (s : σ) : Except Error σ :=
  match members.lookup "data" with
  | none => .ok s
  | some j => Error.locating (.field "data") (Edit.eval (Choice.load j) s)

/-- The value of a text form other than null. -/
def ofJson (j : Json) : Except Error σ := do
  let members ← j.asObject "variant"
  let s ← initialOf σ members
  loadData members s

/-- Loads a variant. Null is for variants that hold nothing, and leaves them so. -/
def load (j : Json) : Edit (Option σ) Unit :=
  match j with
  | .null => do
    if (← get).isSome then Edit.refuse (Fault.alreadySet (Choice.names σ))
  | j => Edit.assign (some <$> ofJson j)

/-- The binary form of a variant that is set. -/
def encode : Option σ → Except Error Bytes
  | none => .error (Fault.neverSet (Choice.names σ))
  | some s => do
    let index ← Bytes.ofInt16? (Choice.index s)
    return index ++ (← Choice.encode s)

/-- Both hold nothing, or equal values. -/
def equals : Option σ → Option σ → Bool
  | none, none => true
  | some s, some t => Choice.equals s t
  | _, _ => false

end Variant

instance Node.variant {σ : Type} [Choice σ] : Node (Option σ) where
  initial := none
  reset _ := Choice.initial? σ 0
  toJson := Variant.toJson
  load := Variant.load
  encode := Variant.encode
  equals := Variant.equals

instance Inspect.variant {σ : Type} [Choice σ] [Inspect σ] : Inspect (Option σ) where
  findings
    | some s => Inspect.findings s
    | none => Findings.note .error
        s!"no value assigned, expected one of {Fault.bracketed (Choice.names σ)}"

end MapDocument
