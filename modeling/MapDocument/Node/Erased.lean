import MapDocument.Node.List
import MapDocument.Node.Variant
/-!
# Nodes — values of which the type is not known beforehand

A node may be handed over without saying what it is. Types then have codes,
and the node can be asked whether it is of a type. A list takes it as an item
if it is of the type of its items, and joins it if it is a list of that type.
A variant takes it if it is a value of the choice by itself, or of one of the
candidates.

What can be done to a list or a variant is written as a step, so that a whole
run is a list of steps.
-/

namespace MapDocument

/-- A value together with the code of its type. -/
structure Erased {κ : Type} (Carrier : κ → Type) where
  type : κ
  value : Carrier type

/-- The value of a node, if it has the given type. -/
def Erased.as? {κ : Type} [DecidableEq κ] {Carrier : κ → Type} (t : κ) (x : Erased Carrier) :
    Option (Carrier t) :=
  if h : x.type = t then some (h ▸ x.value) else none

/-- Types that have codes, and lists of each of them that have one too. The type of a list
is not that of its items. -/
class Listed {κ : Type} (Carrier : κ → Type) where
  /-- The code of the lists of a type. -/
  list : κ → κ
  /-- The name of a type in messages. -/
  path : κ → String
  carrier_list (t : κ) : Carrier (list t) = List (Carrier t)
  list_ne (t : κ) : list t ≠ t

/-- A choice among types that have codes. The candidates are of different types, and none
of them is the choice itself. -/
class Choice.Coded {κ : Type} (Carrier : κ → Type) [∀ t, Node (Carrier t)] (σ : Type)
    [Choice σ] where
  /-- The code of the choice by itself. -/
  bare : κ
  /-- The names of the candidates with the codes of their types, in order. -/
  codes : List (String × κ)
  carrier_bare : Carrier bare = σ
  candidates_eq : Choice.candidates σ = codes.map fun c => candidate c.1 (Carrier c.2)
  nodup : (bare :: codes.map Prod.snd).Nodup

section Coded

variable {κ : Type} {Carrier : κ → Type} [∀ t, Node (Carrier t)] {σ : Type} [Choice σ]
  [Choice.Coded Carrier σ]

namespace Choice.Coded

theorem length_candidates : (Choice.candidates σ).length = (codes Carrier σ).length :=
  (congrArg List.length candidates_eq).trans (List.length_map _)

variable (Carrier) in
/-- The code of the type of a candidate. -/
def code (i : Fin (Choice.candidates σ).length) : κ :=
  ((codes Carrier σ).get (i.cast length_candidates)).2

/-- Values of the type with that code are values of the candidate. -/
theorem value_eq (i : Fin (Choice.candidates σ).length) :
    ((Choice.candidates σ).get i).Value = Carrier (code Carrier i) := by
  have hget : (Choice.candidates σ)[i.val] = candidate _ (Carrier (code Carrier i)) :=
    (List.getElem_of_eq candidates_eq i.isLt).trans (List.getElem_map _)
  exact congrArg Candidate.Value hget

/-- The value of the choice that a value of its own type is. -/
def ofBare (y : Carrier (bare Carrier σ)) : σ := cast carrier_bare y

/-- The value of the choice that a value of the type of a candidate is. -/
def ofCandidate (i : Fin (Choice.candidates σ).length) (y : Carrier (code Carrier i)) : σ :=
  join ⟨i, cast (value_eq i).symm y⟩

end Choice.Coded

variable [DecidableEq κ]

open Choice.Coded in
/-- The value of a choice that a node of any type is, by itself or as one of the candidates. -/
def Choice.ofErased? (x : Erased Carrier) : Option σ :=
  match x.as? (bare Carrier σ) with
  | some y => some (ofBare y)
  | none => (List.finRange _).findSome? fun i => (x.as? (code Carrier i)).map (ofCandidate i)

end Coded

/-! ## Lists -/

namespace UniformList

variable {κ : Type} {Carrier : κ → Type} [∀ t, Node (Carrier t)] [DecidableEq κ]
  [Listed Carrier] {t : κ}

/-- Puts the parts of a node at the end of a list, if the node is of the given type. -/
def extendErased (type : κ) (parts : Carrier type → List (Carrier t)) (fault : Fault)
    (x : Erased Carrier) : Edit (List (Carrier t)) Unit :=
  match x.as? type with
  | some y => modify (· ++ parts y)
  | none => Edit.refuse fault

/-- Puts a node of any type at the end of a list. -/
def pushErased : Erased Carrier → Edit (List (Carrier t)) Unit :=
  extendErased t (fun x => [x]) (Fault.notElement (Listed.path Carrier t))

/-- The items of a value that is a list. -/
def items (xs : Carrier (Listed.list Carrier t)) : List (Carrier t) :=
  cast (Listed.carrier_list t) xs

/-- Puts the items of a list of any type at the end of a list. -/
def appendErased : Erased Carrier → Edit (List (Carrier t)) Unit :=
  extendErased (Listed.list Carrier t) items (Fault.notListOf (Listed.path Carrier t))

/-- Loads the item at an index in place, if there is one; answers whether there is. -/
def loadItem (i : Nat) (j : Json) : Edit (List (Carrier t)) Bool := fun xs =>
  match xs[i]? with
  | none => .ok false xs
  | some x =>
    match Node.load j x with
    | .ok _ x => .ok true (xs.set i x)
    | .error e x => .error e (xs.set i x)

/-- One change of a list of nodes of type `t`. -/
inductive Step (Carrier : κ → Type) (t : κ)
  | push (x : Carrier t)
  | pushAny (x : Erased Carrier)
  | append (xs : List (Carrier t))
  | appendAny (xs : Erased Carrier)
  /-- Loads one item in place. -/
  | loadAt (i : Nat) (j : Json)
  /-- Puts every item back to its default. -/
  | resetAll
  | clear
  | load (j : Json)
  | reset

namespace Step

/-- Makes a change; answers whether there was something to change. -/
def apply : Step Carrier t → Edit (List (Carrier t)) Bool
  | push x => do modify (· ++ [x]); return true
  | pushAny x => do pushErased x; return true
  | append xs => do modify (· ++ xs); return true
  | appendAny xs => do appendErased xs; return true
  | loadAt i j => loadItem i j
  | resetAll => do modify (·.map Node.reset); return true
  | clear => do set ([] : List (Carrier t)); return true
  | load j => do Node.load j; return true
  | reset => do modify Node.reset; return true

/-- The list after changes one after the other, refused ones passed over. -/
def run (steps : List (Step Carrier t)) (xs : List (Carrier t)) : List (Carrier t) :=
  steps.foldl (fun xs step => Edit.held (step.apply xs)) xs

end Step

end UniformList

/-! ## Variants -/

namespace Variant

variable {κ : Type} {Carrier : κ → Type} [∀ t, Node (Carrier t)] [DecidableEq κ] {σ : Type}
  [Choice σ] [Choice.Coded Carrier σ]

/-- Puts a node of any type into a variant. -/
def putErased (x : Erased Carrier) : Edit (Option σ) Unit :=
  match (Choice.ofErased? x : Option σ) with
  | some s => set (some s)
  | none => Edit.refuse (Fault.notCandidate (Choice.names σ))

/-- Loads the value held in place, if there is one; answers whether there is. -/
def loadHeld (j : Json) : Edit (Option σ) Bool := fun v =>
  match v with
  | none => .ok false none
  | some s =>
    match Choice.load j s with
    | .ok _ s => .ok true (some s)
    | .error e s => .error e (some s)

/-- Puts the value held back to its default, if there is one; answers whether there is. -/
def resetHeld : Edit (Option σ) Bool := do
  modify (·.map Choice.reset)
  return (← get).isSome

/-- One change of a variant. -/
inductive Step (Carrier : κ → Type) (σ : Type)
  | put (s : σ)
  | putAny (x : Erased Carrier)
  | load (j : Json)
  | reset
  /-- Loads the value held in place. -/
  | loadHeld (j : Json)
  /-- Puts the value held back to the default of its candidate. -/
  | resetHeld

namespace Step

/-- Makes a change; answers whether there was something to change. -/
def apply : Step Carrier σ → Edit (Option σ) Bool
  | put s => do set (some s); return true
  | putAny x => do putErased x; return true
  | load j => do Variant.load j; return true
  | reset => do modify Node.reset; return true
  | loadHeld j => Variant.loadHeld j
  | resetHeld => Variant.resetHeld

/-- The variant after changes one after the other, refused ones passed over. -/
def run (steps : List (Step Carrier σ)) (v : Option σ) : Option σ :=
  steps.foldl (fun v step => Edit.held (step.apply v)) v

end Step

end Variant

end MapDocument
