import MapDocument.Node.Leaf
import MapDocument.Node.List
import MapDocument.Node.Record
import MapDocument.Node.Variant
import MapDocument.Proofs.Outcome
/-!
# Nodes — what a load comes to

A load is an edit of the node that is there, but mostly all of it is built
anew. The equations here say what a load makes of a node as a computation
without state: leaves and lists are read, records are put together from
their fields, and only a null variant is asked what it holds. The types of
nodes whose loads come to the same whatever the node held are the forgetful
ones.
-/

namespace MapDocument

/-! ## Edits -/

namespace Edit

variable {σ α β : Type} {s : σ}

/-- Assigning a result makes its value, whatever was there. -/
@[simp] theorem eval_assign (result : Except Error σ) : eval (assign result) s = result := by
  cases result <;> rfl

/-- An edit made on a copy makes the same of a value. -/
@[simp] theorem eval_staged (edit : Edit σ α) : eval (staged edit) s = eval edit s := by
  cases h : edit s <;> simp [eval, staged, h]

/-- An edit that is seen from further out fails further out. -/
@[simp] theorem eval_within (step : PathStep) (edit : Edit σ α) :
    eval (within step edit) s = Error.locating step (eval edit s) := by
  cases h : edit s <;>
  · simp only [eval, within, h]
    rfl

/-- A check stands before what it guards. -/
theorem eval_check_bind (result : Except Error α) (edit : α → Edit σ β) :
    eval (check result >>= edit) s = result >>= fun a => eval (edit a) s := by
  cases result <;> rfl

end Edit

/-- What is made of a result has no part in its error. -/
theorem map_eq_error {ε α β : Type} {f : α → β} {x : Except ε α} {e : ε} :
    f <$> x = .error e ↔ x = .error e := by
  cases x <;> simp [Functor.map, Except.map]

/-! ## Fields and records -/

namespace Field

/-- A field that is not mentioned has its default, whatever it had before. -/
@[simp] theorem eval_load_none (f : Field) (x : f.Value) :
    Edit.eval (f.load none) x = .ok f.initial := rfl

/-- A field that is mentioned is loaded from its member. -/
@[simp] theorem eval_load_some (f : Field) (j : Json) (x : f.Value) :
    Edit.eval (f.load (some j)) x =
      Error.locating (.field f.name) (Edit.eval (Node.load j) x) :=
  Edit.eval_within _ _

/-- Fields are loaded one after the other, each from its own value. -/
theorem eval_loadAll_cons {members : List (String × Json)} {f : Field} {fs : List Field}
    (x : f.Value) (xs : Values fs) :
    Edit.eval (loadAll members (f :: fs)) (x, xs) = do
      let y ← Edit.eval (f.load (members.lookup f.name)) x
      let ys ← Edit.eval (loadAll members fs) xs
      return (y, ys) := by
  simp only [Edit.eval, loadAll]
  cases f.load (members.lookup f.name) x with
  | error e y => rfl
  | ok u y => cases loadAll members fs xs <;> rfl

/-- Where the first field is refused, the others are not loaded. -/
theorem loadAll_cons_of_error {members : List (String × Json)} {f : Field} {fs : List Field}
    {x y : f.Value} {e : Error} (h : f.load (members.lookup f.name) x = .error e y)
    (xs : Values fs) : loadAll members (f :: fs) (x, xs) = .error e (y, xs) := by
  simp only [loadAll, h]

/-- Each field comes to the same in two loads: from values of its own, and from
members of its own. -/
def LoadAlike (members members' : List (String × Json)) :
    (fs : List Field) → Values fs → Values fs → Prop
  | [], _, _ => True
  | f :: fs, (x, xs), (y, ys) =>
    Edit.eval (f.load (members.lookup f.name)) x =
        Edit.eval (f.load (members'.lookup f.name)) y ∧
      LoadAlike members members' fs xs ys

/-- Fields that come to the same one by one come to the same together. -/
theorem LoadAlike.eval_loadAll {members members' : List (String × Json)} {fs : List Field}
    {xs ys : Values fs} (h : LoadAlike members members' fs xs ys) :
    Edit.eval (loadAll members fs) xs = Edit.eval (loadAll members' fs) ys := by
  induction fs with
  | nil => rfl
  | cons f fs ih =>
    obtain ⟨x, xs⟩ := xs
    obtain ⟨y, ys⟩ := ys
    rw [eval_loadAll_cons, eval_loadAll_cons, h.1, ih h.2]

end Field

namespace Record

variable {σ : Type} [Record σ]

/-- A record is put together from its fields and put right. -/
theorem eval_load (j : Json) (s : σ) :
    Edit.eval (Node.load j) s = do
      let members ← j.asObject (name σ)
      let xs ← Edit.eval (Field.loadAll members (fields σ)) (split s)
      return settle (join xs) := by
  refine (Edit.eval_check_bind _ _).trans ?_
  congr 1
  funext members
  rw [Edit.eval_staged]
  simp only [Edit.eval, loadFields]
  cases Field.loadAll members (fields σ) (split s) <;> rfl

/-- A record is put together from its fields and put right. -/
theorem eval_load_object (members : List (String × Json)) (s : σ) :
    Edit.eval (Node.load (.object members)) s = do
      let xs ← Edit.eval (Field.loadAll members (fields σ)) (split s)
      return settle (join xs) :=
  eval_load _ s

/-- Two objects come to the same record if they come to the same fields. -/
theorem eval_load_congr {members members' : List (String × Json)} {s t : σ}
    (h : Field.LoadAlike members members' (fields σ) (split s) (split t)) :
    Edit.eval (Node.load (.object members)) s = Edit.eval (Node.load (.object members')) t := by
  rw [eval_load_object, eval_load_object, h.eval_loadAll]

end Record

/-! ## Lists and variants -/

/-- A list is read anew. -/
theorem Node.eval_load_list {α : Type} [Node α] (j : Json) (xs : List α) :
    Edit.eval (Node.load j) xs = j.asArray "list" >>= Node.ofItems 0 :=
  Edit.eval_assign _

/-- The value of a choice is loaded as the value of its candidate is. -/
theorem Choice.eval_load_join {σ : Type} [Choice σ] (j : Json) (i : Fin (candidates σ).length)
    (x : ((candidates σ).get i).Value) :
    Edit.eval (Choice.load j) (join ⟨i, x⟩ : σ) =
      (fun y => join ⟨i, y⟩) <$> Edit.eval (Node.load j) x := by
  rw [Edit.eval, Choice.load, split_join]
  simp only [Edit.eval]
  cases Node.load j x <;> rfl

namespace Variant

variable {σ : Type} [Choice σ] {j : Json}

/-- A variant that is given more than null is read anew. -/
theorem eval_load (hj : j ≠ .null) (v : Option σ) :
    Edit.eval (Node.load j) v = some <$> (ofJson j : Except Error σ) := by
  have hload : (Node.load j : Edit (Option σ) Unit) = Edit.assign (some <$> ofJson j) := by
    cases j with
    | null => exact absurd rfl hj
    | _ => rfl
  rw [hload, Edit.eval_assign]

end Variant

/-! ## Forgetful types -/

/-- The types of nodes whose loads come to the same whatever the node held. -/
class Node.Forgetful (α : Type) [Node α] : Prop where
  eval_load : ∀ (j : Json) (x : α), Edit.eval (Node.load j) x = Node.ofJson j

/-- What is assigned does not depend on what was there. -/
theorem Node.Forgetful.ofAssign {α : Type} [Node α] {read : Json → Except Error α}
    (h : ∀ j, (Node.load j : Edit α Unit) = Edit.assign (read j)) : Node.Forgetful α where
  eval_load j x := by rw [Node.ofJson, h, Edit.eval_assign, Edit.eval_assign]

instance : Node.Forgetful Single := .ofAssign fun _ => rfl
instance : Node.Forgetful Int32 := .ofAssign fun _ => rfl
instance : Node.Forgetful Bool := .ofAssign fun _ => rfl
instance : Node.Forgetful Vec3 := .ofAssign fun _ => rfl
instance : Node.Forgetful Quaternion := .ofAssign fun _ => rfl
instance : Node.Forgetful Identifier := .ofAssign fun _ => rfl
instance : Node.Forgetful FloatBuffer := .ofAssign fun _ => rfl

/-- **A list forgets what it held, whatever its items are**: they are loaded into fresh
nodes, so not even a null variant among them is asked what was there. -/
instance Node.Forgetful.list {α : Type} [Node α] : Node.Forgetful (List α) :=
  .ofAssign fun _ => rfl

/-- Fields that forget what they held. -/
class Field.Forgetful (fs : List Field) : Prop where
  value : ∀ f ∈ fs, Node.Forgetful f.Value

instance Field.Forgetful.nil : Field.Forgetful [] := ⟨by simp⟩

instance Field.Forgetful.cons {α : Type} [Node α] [head : Node.Forgetful α] {name : String}
    {initial : α} {fs : List Field} [tail : Field.Forgetful fs] :
    Field.Forgetful (field name initial :: fs) where
  value f hf := by
    rcases List.mem_cons.1 hf with rfl | hf
    · exact head
    · exact tail.value f hf

/-- A field that forgets what it held is loaded the same from any two values. -/
theorem Field.eval_load_eq {f : Field} (h : Node.Forgetful f.Value) (j? : Option Json)
    (x y : f.Value) : Edit.eval (f.load j?) x = Edit.eval (f.load j?) y := by
  cases j? with
  | none => rfl
  | some j => rw [eval_load_some, eval_load_some, h.eval_load, h.eval_load]

/-- Fields that forget what they held are loaded alike from any values. -/
theorem Field.loadAlike_of_forgetful (members : List (String × Json)) {fs : List Field}
    (h : ∀ f ∈ fs, Node.Forgetful f.Value) (xs ys : Values fs) :
    LoadAlike members members fs xs ys := by
  induction fs with
  | nil => trivial
  | cons f fs ih =>
    obtain ⟨x, xs⟩ := xs
    obtain ⟨y, ys⟩ := ys
    exact ⟨eval_load_eq (h f List.mem_cons_self) _ x y,
      ih (fun g hg => h g (List.mem_cons_of_mem f hg)) xs ys⟩

/-- **A record forgets what it held if its fields do**: each of them is loaded or put
back to its default. -/
theorem Node.Forgetful.ofFields {σ : Type} [Record σ]
    (fields : Field.Forgetful (Record.fields σ) := by dsimp only [Record.fields]; infer_instance) :
    Node.Forgetful σ where
  eval_load j x := by
    cases j with
    | object members =>
      exact Record.eval_load_congr (Field.loadAlike_of_forgetful members fields.value _ _)
    | _ => rfl

end MapDocument
