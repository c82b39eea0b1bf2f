import MapDocument.Proofs.Node.Schema
import Mathlib.Data.List.Nodup
import Mathlib.Logic.Relation
/-!
# Nodes — text forms that say the same

A text form may say more than a node reads, or less where the node has a
default, and its keys may come in any order. `Node.Schema.Revision` is one
such change, at the outside or at any depth inside: a key that is not
declared is added, the keys are put in another order, or a default is
written out. What is added can be taken away by going back, so
`Node.Schema.Revised` is the equivalence that the changes make.

A load comes to the same before and after a change, and so do whole runs of
them. At each level that is because all declared keys are found to be loaded
alike; a default that is written out is loaded like one that is not, since
all declared defaults come back from their text forms.
-/

namespace MapDocument

/-! ## Changes of a text form -/

/-- A change of an object that no reader of the declared keys sees: one more
key, or another order of the keys, of which none occurs twice. -/
inductive Json.Rearranged (declared : List String) : Json → Json → Prop
  | insert (before after : List (String × Json)) {key : String} (j : Json)
      (undeclared : key ∉ declared) :
      Rearranged declared (.object (before ++ after)) (.object (before ++ (key, j) :: after))
  | permute {members members' : List (String × Json)} (distinct : (members.map Prod.fst).Nodup)
      (perm : members.Perm members') : Rearranged declared (.object members) (.object members')

/-- One change of the text form of a record with the given fields, where `inner`
says how the text forms of the fields change. -/
inductive Record.Revision (fs : List Field) (inner : Fin fs.length → Json → Json → Prop) :
    Json → Json → Prop
  | rearranged {j j' : Json} (h : Json.Rearranged (fs.map Field.name) j j') :
      Revision fs inner j j'
  | default (before after : List (String × Json)) (i : Fin fs.length)
      (absent : (before ++ after).lookup (fs.get i).name = none) :
      Revision fs inner (.object (before ++ after))
        (.object (before ++ ((fs.get i).name, Node.toJson (fs.get i).initial) :: after))
  | field (before after : List (String × Json)) (i : Fin fs.length) {j j' : Json}
      (h : inner i j j') :
      Revision fs inner (.object (before ++ ((fs.get i).name, j) :: after))
        (.object (before ++ ((fs.get i).name, j') :: after))

/-- One change of the text form of a list, where `inner` says how those of the items change. -/
inductive Node.ItemRevision (inner : Json → Json → Prop) : Json → Json → Prop
  | item (before after : List Json) {j j' : Json} (h : inner j j') :
      ItemRevision inner (.array (before ++ j :: after)) (.array (before ++ j' :: after))

/-- The members of an object name a candidate. -/
def Variant.Selects (σ : Type) [Choice σ] (members : List (String × Json))
    (i : Fin (Choice.candidates σ).length) : Prop :=
  Variant.initialOf σ members = .ok (Choice.join ⟨i, Node.initial⟩)

/-- One change of the text form of a variant, where `inner` says how the text forms
of the values of the candidates change. -/
inductive Variant.Revision (σ : Type) [Choice σ]
    (inner : Fin (Choice.candidates σ).length → Json → Json → Prop) : Json → Json → Prop
  | rearranged {j j' : Json} (h : Json.Rearranged ["type", "data"] j j') : Revision σ inner j j'
  | default (before after : List (String × Json)) (i : Fin (Choice.candidates σ).length)
      (selected : Selects σ (before ++ after) i) (absent : (before ++ after).lookup "data" = none) :
      Revision σ inner (.object (before ++ after))
        (.object (before ++ ("data",
          Node.toJson (Node.initial : ((Choice.candidates σ).get i).Value)) :: after))
  | data (before after : List (String × Json)) (i : Fin (Choice.candidates σ).length)
      {j j' : Json} (selected : Selects σ (before ++ ("data", j) :: after) i) (h : inner i j j') :
      Revision σ inner (.object (before ++ ("data", j) :: after))
        (.object (before ++ ("data", j') :: after))

namespace Node.Schema

/-- One change of the text form of a node that has the schema. A leaf has none. -/
def Revision : {α : Type} → [Node α] → {x : α} → Node.Schema α x → Json → Json → Prop
  | _, _, _, leaf _ _ => fun _ _ => False
  | σ, _, _, record _ fields => Record.Revision (Record.fields σ) fun i => (fields i).Revision
  | _, _, _, list item _ => Node.ItemRevision item.Revision
  | _, _, _, @variant σ _ _ candidates _ => Variant.Revision σ fun i => (candidates i).Revision

/-- Any number of changes, made or taken back. -/
def Revised {α : Type} [Node α] {x : α} (schema : Node.Schema α x) : Json → Json → Prop :=
  Relation.EqvGen schema.Revision

end Node.Schema

/-! ## What keys lead to -/

section Lookup

variable {members members' before after : List (String × Json)} {key name : String} {j : Json}

/-- A member of another name hides nothing. -/
theorem lookup_append_cons_ne (h : key ≠ name) :
    (before ++ (name, j) :: after).lookup key = (before ++ after).lookup key := by
  rw [List.lookup_append, List.lookup_append, List.lookup_cons, beq_false_of_ne h]

/-- A member is found where no other has its name. -/
theorem lookup_append_cons_self (h : (before ++ after).lookup key = none) :
    (before ++ (key, j) :: after).lookup key = some j := by
  rw [List.lookup_append, Option.or_eq_none_iff] at h
  rw [List.lookup_append, h.1, List.lookup_cons_self, Option.none_or]

/-- A member is hidden by an earlier one of its name, or is found. -/
theorem lookup_append_cons_cases (before after : List (String × Json)) (key : String) :
    (∃ first, ∀ j, (before ++ (key, j) :: after).lookup key = some first) ∨
      ∀ j, (before ++ (key, j) :: after).lookup key = some j := by
  cases hbefore : before.lookup key with
  | some first =>
    refine .inl ⟨first, fun j => ?_⟩
    rw [List.lookup_append, hbefore, Option.some_or]
  | none =>
    refine .inr fun j => ?_
    rw [List.lookup_append, hbefore, List.lookup_cons_self, Option.none_or]

/-- Where no name occurs twice, the order of the members does not matter. -/
theorem lookup_eq_of_perm (perm : members.Perm members') (distinct : (members.map Prod.fst).Nodup) :
    members.lookup key = members'.lookup key := by
  induction perm with
  | nil => rfl
  | cons x _ ih =>
    rw [List.map_cons, List.nodup_cons] at distinct
    rw [List.lookup_cons, List.lookup_cons, ih distinct.2]
  | swap x y rest =>
    obtain ⟨nameX, x⟩ := x
    obtain ⟨nameY, y⟩ := y
    have hne : nameY ≠ nameX := by
      rintro rfl
      simp at distinct
    simp only [List.lookup_cons]
    by_cases hy : key = nameY
    · rw [hy, beq_false_of_ne hne]
    · rw [beq_false_of_ne hy]
  | trans perm _ ih ih' =>
    exact (ih distinct).trans (ih' ((perm.map Prod.fst).nodup_iff.1 distinct))

/-- What a rearranged object has under the declared keys. -/
theorem Json.Rearranged.exists_members {declared : List String} {j j' : Json}
    (h : Json.Rearranged declared j j') :
    ∃ members members', j = .object members ∧ j' = .object members' ∧
      ∀ key ∈ declared, members.lookup key = members'.lookup key := by
  cases h with
  | insert before after j undeclared =>
    refine ⟨_, _, rfl, rfl, fun key hkey => (lookup_append_cons_ne ?_).symm⟩
    rintro rfl
    exact undeclared hkey
  | permute distinct perm =>
    exact ⟨_, _, rfl, rfl, fun key _ => lookup_eq_of_perm perm distinct⟩

end Lookup

/-! ## Records -/

/-- Two text forms that come to the same, whatever was held. -/
def Node.SameLoad (α : Type) [Node α] (j j' : Json) : Prop :=
  ∀ x : α, Edit.eval (Node.load j) x = Edit.eval (Node.load j') x

namespace Field

variable {members members' : List (String × Json)}

/-- A field comes to the same from two objects. -/
def SameIn (members members' : List (String × Json)) (f : Field) : Prop :=
  ∀ x, Edit.eval (f.load (members.lookup f.name)) x = Edit.eval (f.load (members'.lookup f.name)) x

/-- A field is loaded alike from objects that have the same under its name. -/
theorem sameIn_of_lookup_eq {f : Field} (h : members.lookup f.name = members'.lookup f.name) :
    f.SameIn members members' := by
  intro x
  rw [h]

/-- Fields that come to the same are loaded alike. -/
theorem loadAlike_of_sameIn {fs : List Field} (h : ∀ f ∈ fs, f.SameIn members members')
    (xs : Values fs) : LoadAlike members members' fs xs xs := by
  induction fs with
  | nil => trivial
  | cons f fs ih =>
    obtain ⟨x, xs⟩ := xs
    exact ⟨h f List.mem_cons_self x, ih (fun g hg => h g (List.mem_cons_of_mem f hg)) xs⟩

/-- Objects that differ in one member only come to the same if its field does. -/
theorem sameIn_of_one {fs : List Field} (nodup_names : (fs.map Field.name).Nodup)
    (i : Fin fs.length) (hone : (fs.get i).SameIn members members')
    (hothers : ∀ key ≠ (fs.get i).name, members.lookup key = members'.lookup key) :
    ∀ f ∈ fs, f.SameIn members members' := by
  intro f hf
  by_cases hname : f.name = (fs.get i).name
  · rw [List.inj_on_of_nodup_map nodup_names hf (List.get_mem fs i) hname]
    exact hone
  · exact sameIn_of_lookup_eq (hothers f.name hname)

/-- A default that is written out is loaded like one that is not. -/
theorem Restored.sameIn {f : Field} (h : f.Restored) {before after : List (String × Json)}
    (absent : (before ++ after).lookup f.name = none) :
    f.SameIn (before ++ after) (before ++ (f.name, Node.toJson f.initial) :: after) := by
  intro x
  rw [absent, lookup_append_cons_self absent, eval_load_none, eval_load_some, h x]
  rfl

/-- A field comes to the same where its member does. -/
theorem sameIn_of_sameLoad {f : Field} {before after : List (String × Json)} {j j' : Json}
    (h : Node.SameLoad f.Value j j') :
    f.SameIn (before ++ (f.name, j) :: after) (before ++ (f.name, j') :: after) := by
  intro x
  rcases lookup_append_cons_cases before after f.name with ⟨first, hfirst⟩ | hself
  · rw [hfirst, hfirst]
  · rw [hself, hself, eval_load_some, eval_load_some, h x]

end Field

/-- **Changes of the text form of a record come to the same**, if those of its fields do. -/
theorem Record.sameLoad_of_revision {σ : Type} [Record σ] (law : Record.Restoring σ)
    {inner : Fin (Record.fields σ).length → Json → Json → Prop}
    (hinner : ∀ i j j', inner i j j' → Node.SameLoad ((Record.fields σ).get i).Value j j')
    {j j' : Json} (h : Record.Revision (Record.fields σ) inner j j') : Node.SameLoad σ j j' := by
  have hload {members members' : List (String × Json)}
      (hfields : ∀ f ∈ Record.fields σ, f.SameIn members members') :
      Node.SameLoad σ (.object members) (.object members') :=
    fun s => Record.eval_load_congr (Field.loadAlike_of_sameIn hfields (Record.split s))
  cases h with
  | rearranged h =>
    obtain ⟨members, members', rfl, rfl, hlookup⟩ := h.exists_members
    exact hload fun f hf => Field.sameIn_of_lookup_eq (hlookup f.name (List.mem_map_of_mem hf))
  | default before after i absent =>
    refine hload (Field.sameIn_of_one law.nodup_names i ?_ fun key hkey => ?_)
    · exact (law.restored _ (List.get_mem _ i)).sameIn absent
    · exact (lookup_append_cons_ne hkey).symm
  | field before after i h =>
    refine hload (Field.sameIn_of_one law.nodup_names i ?_ fun key hkey => ?_)
    · exact Field.sameIn_of_sameLoad (hinner i _ _ h)
    · rw [lookup_append_cons_ne hkey, lookup_append_cons_ne hkey]

/-! ## Lists -/

/-- **Changes of the text form of a list come to the same**, if those of its items do. -/
theorem Node.sameLoad_of_itemRevision {α : Type} [Node α] {inner : Json → Json → Prop}
    (hinner : ∀ j j', inner j j' → Node.SameLoad α j j') {j j' : Json}
    (h : Node.ItemRevision inner j j') : Node.SameLoad (List α) j j' := by
  obtain ⟨before, after, h⟩ := h
  rename_i j j'
  have hitems (index : Nat) : (Node.ofItems index (before ++ j :: after) : Except Error (List α)) =
      Node.ofItems index (before ++ j' :: after) := by
    induction before generalizing index with
    | nil =>
      have hitem : (Node.ofJson j : Except Error α) = Node.ofJson j' := hinner j j' h Node.initial
      simp only [List.nil_append, Node.ofItems, hitem]
    | cons first before ih =>
      simp only [List.cons_append, Node.ofItems, ih]
  intro xs
  rw [Node.eval_load_list, Node.eval_load_list]
  exact hitems 0

/-! ## Variants -/

namespace Variant

variable {σ : Type} [Choice σ] {members members' : List (String × Json)}

/-- Only the type has a part in which candidate is found. -/
theorem initialOf_congr (h : members.lookup "type" = members'.lookup "type") :
    initialOf σ members = initialOf σ members' := by
  rw [initialOf, initialOf, h]

/-- Only the data has a part in what is loaded into the default of a candidate. -/
theorem loadData_congr (h : members.lookup "data" = members'.lookup "data") (s : σ) :
    loadData members s = loadData members' s := by
  rw [loadData, loadData, h]

/-- An object is loaded into a variant as the data into the default of the candidate. -/
theorem sameLoad_object
    (h : initialOf σ members >>= loadData members = initialOf σ members' >>= loadData members') :
    Node.SameLoad (Option σ) (.object members) (.object members') := by
  intro v
  have hload (members : List (String × Json)) :
      Edit.eval (Node.load (.object members)) v =
        some <$> (initialOf σ members >>= loadData members) :=
    eval_load (j := .object members) nofun v
  rw [hload, hload, h]

/-- Data is loaded into the default of the candidate that is selected. -/
theorem bind_loadData_of_selects {i : Fin (Choice.candidates σ).length} {j : Json}
    (selected : Selects σ members i) (hdata : members.lookup "data" = some j) :
    initialOf σ members >>= loadData members =
      Error.locating (.field "data") ((fun x => (Choice.join ⟨i, x⟩ : σ)) <$>
        Edit.eval (Node.load j) (Node.initial : ((Choice.candidates σ).get i).Value)) := by
  have hload : initialOf σ members >>= loadData members =
      loadData members (Choice.join ⟨i, Node.initial⟩) := by
    rw [show initialOf σ members = _ from selected]
    rfl
  rw [hload, loadData, hdata]
  exact congrArg (Error.locating (.field "data")) (Choice.eval_load_join j i Node.initial)

/-- **Changes of the text form of a variant come to the same**, if those of the values of
its candidates do. -/
theorem sameLoad_of_revision (law : Choice.Restoring σ)
    {inner : Fin (Choice.candidates σ).length → Json → Json → Prop}
    (hinner : ∀ i j j', inner i j j' → Node.SameLoad ((Choice.candidates σ).get i).Value j j')
    {j j' : Json} (h : Revision σ inner j j') : Node.SameLoad (Option σ) j j' := by
  have htype {before after : List (String × Json)} {data : Json} :
      initialOf σ (before ++ ("data", data) :: after) = initialOf σ (before ++ after) :=
    initialOf_congr (lookup_append_cons_ne (by decide))
  cases h with
  | rearranged h =>
    obtain ⟨members, members', rfl, rfl, hlookup⟩ := h.exists_members
    refine sameLoad_object ?_
    rw [initialOf_congr (hlookup "type" (by decide))]
    congr 1
    funext s
    exact loadData_congr (hlookup "data" (by decide)) s
  | default before after i selected absent =>
    refine sameLoad_object ?_
    have hwritten := bind_loadData_of_selects (htype.trans selected)
      (lookup_append_cons_self (j := Node.toJson
        (Node.initial : ((Choice.candidates σ).get i).Value)) absent)
    have hdefault := law _ (List.get_mem _ i)
    rw [Node.ofJson] at hdefault
    rw [hwritten, hdefault, show initialOf σ (before ++ after) = _ from selected]
    show loadData (before ++ after) (Choice.join ⟨i, Node.initial⟩) = _
    rw [loadData, absent]
    rfl
  | data before after i selected h =>
    rename_i j j'
    refine sameLoad_object ?_
    have selected' : Selects σ (before ++ ("data", j') :: after) i :=
      htype.trans (htype.symm.trans selected)
    rcases lookup_append_cons_cases before after "data" with ⟨first, hfirst⟩ | hself
    · rw [bind_loadData_of_selects selected (hfirst j),
        bind_loadData_of_selects selected' (hfirst j')]
    · rw [bind_loadData_of_selects selected (hself j),
        bind_loadData_of_selects selected' (hself j'), hinner i j j' h]

end Variant

/-! ## Schemas -/

namespace Node.Schema

/-- **A change of a text form comes to the same**, wherever it is made. -/
theorem sameLoad_of_revision {α : Type} [Node α] {x : α} (schema : Node.Schema α x) {j j' : Json}
    (h : schema.Revision j j') : Node.SameLoad α j j' := by
  induction schema generalizing j j' with
  | leaf => exact h.elim
  | record law fields ih =>
    exact Record.sameLoad_of_revision law (fun i j j' hinner => ih i hinner) h
  | list item xs ih => exact Node.sameLoad_of_itemRevision (fun j j' hinner => ih hinner) h
  | variant law candidates v ih =>
    exact Variant.sameLoad_of_revision law (fun i j j' hinner => ih i hinner) h

/-- **So do any number of changes**, made or taken back. -/
theorem Revised.sameLoad {α : Type} [Node α] {x : α} {schema : Node.Schema α x} {j j' : Json}
    (h : schema.Revised j j') : Node.SameLoad α j j' := by
  induction h with
  | rel j j' h => exact schema.sameLoad_of_revision h
  | refl j => exact fun y => rfl
  | symm j j' _ ih => exact fun y => (ih y).symm
  | trans j j' j'' _ _ ih ih' => exact fun y => (ih y).trans (ih' y)

end Node.Schema

end MapDocument
