import MapDocument.Catalog.Containers
import MapDocument.Proofs.Node.Lasting
/-!
# Nodes — lists hold what succeeded

A list is a plain sequence of nodes of one type, however it was offered them. What each
change makes of a sequence is said without a word about refusals (`Makes`), and a change
succeeds just where it makes something (`Step.exists_apply_eq_ok`). So after a whole run a
list is what its successful changes make one after the other, if the refused ones leave it
alone. All but one are made such that they do; an item that is loaded in place is left to
its own load, and stays what it was if that is so for nodes of its type.
-/

namespace MapDocument

/-! ## Items -/

/-- A list is loaded from an array, whatever it held. -/
theorem Node.load_list_eq_ok {α : Type} [Node α] {j : Json} {xs ys : List α} :
    Node.load j xs = .ok () ys ↔
      ∃ js, j = .array js ∧ List.Forall₂ (fun j x => Node.ofJson j = .ok x) js ys := by
  refine Edit.assign_eq_ok.trans (bind_eq_ok.trans ?_)
  constructor
  · rintro ⟨js, hjs, hys⟩
    cases j with
    | array _ =>
      cases hjs
      exact ⟨js, rfl, Node.ofItems_eq_ok.1 hys⟩
    | _ => cases hjs
  · rintro ⟨js, rfl, hys⟩
    exact ⟨js, rfl, Node.ofItems_eq_ok.2 hys⟩

namespace UniformList

variable {κ : Type} {Carrier : κ → Type} [∀ t, Node (Carrier t)] [Listed Carrier] {t : κ}

/-! ## What changes make -/

/-- What a change makes of a sequence of nodes. -/
inductive Makes : Step Carrier t → List (Carrier t) → List (Carrier t) → Prop
  | push (x : Carrier t) (xs) : Makes (.push x) xs (xs ++ [x])
  | pushAny (x : Carrier t) (xs) : Makes (.pushAny ⟨t, x⟩) xs (xs ++ [x])
  | append (ys xs : List (Carrier t)) : Makes (.append ys) xs (xs ++ ys)
  | appendAny (ys : Carrier (Listed.list Carrier t)) (xs) :
      Makes (.appendAny ⟨Listed.list Carrier t, ys⟩) xs (xs ++ items ys)
  /-- There is nothing at the index. -/
  | absent {i : Nat} {xs} (j : Json) (h : xs.length ≤ i) : Makes (.loadAt i j) xs xs
  | loadAt {i : Nat} {j : Json} {x y : Carrier t} {xs} (hx : xs[i]? = some x)
      (hy : Node.load j x = .ok () y) : Makes (.loadAt i j) xs (xs.set i y)
  | resetAll (xs) : Makes .resetAll xs (xs.map Node.reset)
  | clear (xs) : Makes .clear xs []
  | load {js : List Json} (xs) {ys}
      (h : List.Forall₂ (fun j y => Node.ofJson j = .ok y) js ys) :
      Makes (.load (.array js)) xs ys
  | reset (xs) : Makes .reset xs []

/-- What changes make of a sequence, one after the other. -/
inductive MakesAll : List (Step Carrier t) → List (Carrier t) → List (Carrier t) → Prop
  | nil (xs) : MakesAll [] xs xs
  | cons {step steps xs ys zs} (h : Makes step xs ys) (hrest : MakesAll steps ys zs) :
      MakesAll (step :: steps) xs zs

variable [DecidableEq κ] {x : Erased Carrier} {xs ys zs : List (Carrier t)} {j : Json}

/-! ## Nodes of any type -/

section Extend

variable {type : κ} {parts : Carrier type → List (Carrier t)} {fault : Fault}

omit [∀ t, Node (Carrier t)] [Listed Carrier]

/-- A list is extended by a node of the type asked for, and by what that stands for. -/
theorem extendErased_eq_ok :
    extendErased type parts fault x xs = .ok () ys ↔ ∃ y, x = ⟨type, y⟩ ∧ ys = xs ++ parts y := by
  unfold extendErased
  cases h : x.as? type with
  | some y =>
    obtain rfl := Erased.as?_eq_some.1 h
    constructor
    · intro hys
      cases hys
      exact ⟨y, rfl, rfl⟩
    · rintro ⟨_, ⟨⟩, rfl⟩
      rfl
  | none =>
    constructor
    · nofun
    · rintro ⟨y, rfl, -⟩
      exact absurd rfl (Erased.as?_eq_none.1 h)

/-- And a node of any other type is refused. -/
theorem extendErased_of_ne (h : x.type ≠ type) :
    extendErased type parts fault x xs = .error (.of fault) xs := by
  rw [extendErased, Erased.as?_eq_none.2 h]
  rfl

/-- So only the type of a node decides whether it is taken. -/
theorem exists_extendErased :
    (∃ ys, extendErased type parts fault x xs = .ok () ys) ↔ x.type = type := by
  constructor
  · rintro ⟨ys, h⟩
    obtain ⟨y, rfl, -⟩ := extendErased_eq_ok.1 h
    rfl
  · obtain ⟨_, y⟩ := x
    rintro rfl
    exact ⟨_, extendErased_eq_ok.2 ⟨y, rfl, rfl⟩⟩

theorem atomic_extendErased : (extendErased type parts fault x).Atomic := by
  unfold extendErased
  cases x.as? type with
  | some y => nofun
  | none => exact Edit.atomic_refuse fault

end Extend

namespace Step

variable {step : Step Carrier t} {steps : List (Step Carrier t)} {b : Bool} {i : Nat}

/-! ## Changes that succeed -/

omit [Listed Carrier] [DecidableEq κ] in
/-- An item is loaded in place, or there is none. -/
theorem loadItem_eq_ok :
    loadItem i j xs = .ok b ys ↔
      (b = false ∧ xs.length ≤ i ∧ ys = xs) ∨
        b = true ∧ ∃ x y, xs[i]? = some x ∧ Node.load j x = .ok () y ∧ ys = xs.set i y := by
  unfold loadItem
  cases hx : xs[i]? with
  | none =>
    have hlength : xs.length ≤ i := List.getElem?_eq_none_iff.1 hx
    constructor
    · intro h
      cases h
      exact .inl ⟨rfl, hlength, rfl⟩
    · rintro (⟨rfl, -, rfl⟩ | ⟨-, _, _, ⟨⟩, -⟩)
      rfl
  | some x =>
    have hlength : ¬ xs.length ≤ i := Nat.not_le.2 (List.getElem?_eq_some_iff.1 hx).1
    simp only
    cases hy : Node.load j x with
    | ok _ y =>
      constructor
      · intro h
        cases h
        exact .inr ⟨rfl, x, y, rfl, hy, rfl⟩
      · rintro (⟨-, h, -⟩ | ⟨rfl, _, z, ⟨⟩, hz, rfl⟩)
        · exact absurd h hlength
        · rw [hy] at hz
          cases hz
          rfl
    | error e y =>
      constructor
      · nofun
      · rintro (⟨-, h, -⟩ | ⟨-, _, z, ⟨⟩, hz, -⟩)
        · exact absurd h hlength
        · rw [hy] at hz
          cases hz

/-- **A change succeeds just where it makes something of the list**, and then the list is
that. -/
theorem exists_apply_eq_ok : (∃ b, step.apply xs = .ok b ys) ↔ Makes step xs ys := by
  -- most changes are made whatever the list is, and come to one thing
  have hset {zs : List (Carrier t)} (h : Makes step xs zs) (hunique : Makes step xs ys → ys = zs) :
      (.ok () zs : EStateM.Result Error _ Unit) = .ok () ys ↔ Makes step xs ys := by
    constructor
    · intro heq
      cases heq
      exact h
    · intro hys
      rw [hunique hys]
  cases step with
  | push x =>
    exact Edit.exists_returning_eq_ok.trans (hset (.push x xs) fun | .push .. => rfl)
  | pushAny x =>
    refine Edit.exists_returning_eq_ok.trans (extendErased_eq_ok.trans ⟨?_, fun h => ?_⟩)
    · rintro ⟨y, rfl, rfl⟩
      exact .pushAny y xs
    · cases h with
      | pushAny y => exact ⟨y, rfl, rfl⟩
  | append more =>
    exact Edit.exists_returning_eq_ok.trans (hset (.append more xs) fun | .append .. => rfl)
  | appendAny x =>
    refine Edit.exists_returning_eq_ok.trans (extendErased_eq_ok.trans ⟨?_, fun h => ?_⟩)
    · rintro ⟨more, rfl, rfl⟩
      exact .appendAny more xs
    · cases h with
      | appendAny more => exact ⟨more, rfl, rfl⟩
  | loadAt i j =>
    refine (exists_congr fun b => loadItem_eq_ok).trans ⟨?_, fun h => ?_⟩
    · rintro ⟨b, ⟨-, h, rfl⟩ | ⟨-, x, y, hx, hy, rfl⟩⟩
      · exact .absent j h
      · exact .loadAt hx hy
    · cases h with
      | absent _ h => exact ⟨false, .inl ⟨rfl, h, rfl⟩⟩
      | loadAt hx hy => exact ⟨true, .inr ⟨rfl, _, _, hx, hy, rfl⟩⟩
  | resetAll =>
    exact Edit.exists_returning_eq_ok.trans (hset (.resetAll xs) fun | .resetAll _ => rfl)
  | clear =>
    exact Edit.exists_returning_eq_ok.trans (hset (.clear xs) fun | .clear _ => rfl)
  | load j =>
    refine Edit.exists_returning_eq_ok.trans (Node.load_list_eq_ok.trans ⟨?_, fun h => ?_⟩)
    · rintro ⟨js, rfl, h⟩
      exact .load xs h
    · cases h with
      | load _ h => exact ⟨_, rfl, h⟩
  | reset =>
    exact Edit.exists_returning_eq_ok.trans (hset (.reset xs) fun | .reset _ => rfl)

/-! ## Changes that are refused -/

omit [Listed Carrier] [DecidableEq κ] in
/-- An item that is loaded in place stays what it was where that is refused, if it is so for
nodes of its type. -/
theorem atomic_loadItem (h : Node.Atomic (Carrier t)) :
    (loadItem i j : Edit (List (Carrier t)) Bool).Atomic := by
  intro xs ys e he
  unfold loadItem at he
  cases hx : xs[i]? with
  | none =>
    rw [hx] at he
    cases he
  | some x =>
    rw [hx] at he
    simp only at he
    split at he
    · cases he
    · rename_i hload
      cases he
      obtain ⟨hlt, rfl⟩ := List.getElem?_eq_some_iff.1 hx
      rw [h j hload]
      exact List.set_getElem_self hlt

/-- **A change that is refused leaves the list as it was.** Of all changes only the load of an
item in place owes this to the items. -/
theorem atomic (h : Node.Atomic (Carrier t) ∨ ∀ i j, step ≠ loadAt i j) :
    (step.apply : Edit (List (Carrier t)) Bool).Atomic := by
  cases step with
  | push x => nofun
  | pushAny x => exact atomic_extendErased.returning true
  | append more => nofun
  | appendAny x => exact atomic_extendErased.returning true
  | loadAt i j => exact atomic_loadItem (h.resolve_right fun hother => hother i j rfl)
  | resetAll => nofun
  | clear => nofun
  | load j => exact (Node.atomic_list (Carrier t) j).returning true
  | reset => nofun

/-- A change that makes nothing of a list is refused. -/
theorem exists_apply_eq_error (hatomic : (step.apply : Edit (List (Carrier t)) Bool).Atomic)
    (h : ∀ ys, ¬ Makes step xs ys) : ∃ e, step.apply xs = .error e xs := by
  cases hstep : step.apply xs with
  | ok b ys => exact absurd (exists_apply_eq_ok.1 ⟨b, hstep⟩) (h ys)
  | error e ys =>
    rw [hatomic hstep]
    exact ⟨e, rfl⟩

/-- **An array is refused with any of its items**, and what was loaded of it before does not
show. -/
theorem exists_apply_load_eq_error {js : List Json} {e : Error} (hj : j ∈ js)
    (he : (Node.ofJson j : Except Error (Carrier t)) = .error e) :
    ∃ e, (load (.array js) : Step Carrier t).apply xs = .error e xs := by
  refine exists_apply_eq_error (atomic (.inr nofun)) fun ys hys => ?_
  cases hys with
  | load _ h =>
    obtain ⟨k, hk, rfl⟩ := List.getElem_of_mem hj
    have hloaded := h.get hk (h.length_eq ▸ hk)
    simp only [List.get_eq_getElem, he] at hloaded
    cases hloaded

/-- A change that is refused for the type of what is offered, and leaves the list as it was. -/
def Mismatch (step : Step Carrier t) (xs : List (Carrier t)) : Prop :=
  ∃ e, step.apply xs = .error e xs ∧ e.kind = .typeMismatch

theorem mismatch_pushAny (h : x.type ≠ t) : (pushAny x).Mismatch xs :=
  ⟨_, bind_of_eq_error (extendErased_of_ne h), rfl⟩

theorem mismatch_appendAny (h : x.type ≠ Listed.list Carrier t) :
    (appendAny x : Step Carrier t).Mismatch xs :=
  ⟨_, bind_of_eq_error (extendErased_of_ne h), rfl⟩

/-- **A node is taken as an item if it is of the type of the items**, and a list joins if it is
a list of these. -/
theorem exists_apply_pushAny : (∃ b ys, (pushAny x).apply xs = .ok b ys) ↔ x.type = t :=
  exists_comm.trans ((exists_congr fun _ => Edit.exists_returning_eq_ok).trans exists_extendErased)

@[inherit_doc exists_apply_pushAny]
theorem exists_apply_appendAny :
    (∃ b ys, (appendAny x : Step Carrier t).apply xs = .ok b ys) ↔
      x.type = Listed.list Carrier t :=
  exists_comm.trans ((exists_congr fun _ => Edit.exists_returning_eq_ok).trans exists_extendErased)

/-! ## Runs -/

/-- The changes of a run that are not refused. -/
def taken : List (Step Carrier t) → List (Carrier t) → List (Step Carrier t)
  | [], _ => []
  | step :: steps, xs =>
    match step.apply xs with
    | .ok _ ys => step :: taken steps ys
    | .error _ ys => taken steps ys

theorem taken_sublist (steps : List (Step Carrier t)) (xs : List (Carrier t)) :
    (taken steps xs).Sublist steps := by
  induction steps generalizing xs with
  | nil => exact .slnil
  | cons step steps ih =>
    unfold taken
    cases step.apply xs with
    | ok b ys => exact (ih ys).cons_cons step
    | error e ys => exact (ih ys).cons step

/-- What changes make of a list is one list. -/
theorem makesAll_unique (h : MakesAll steps xs ys) (h' : MakesAll steps xs zs) : ys = zs := by
  induction h with
  | nil =>
    cases h'
    rfl
  | cons hstep _ ih =>
    cases h' with
    | cons hstep' hrest' =>
      obtain ⟨b, hb⟩ := exists_apply_eq_ok.2 hstep
      obtain ⟨b', hb'⟩ := exists_apply_eq_ok.2 hstep'
      rw [hb] at hb'
      cases hb'
      exact ih hrest'

/-- **After a run a list is what the changes that were not refused make of it.** -/
theorem makesAll_run (h : ∀ step ∈ steps, (step.apply : Edit (List (Carrier t)) Bool).Atomic) :
    MakesAll (taken steps xs) xs (run steps xs) := by
  induction steps generalizing xs with
  | nil => exact .nil xs
  | cons step steps ih =>
    have hrest (ys : List (Carrier t)) : MakesAll (taken steps ys) ys (run steps ys) :=
      ih fun other hother => h other (List.mem_cons_of_mem step hother)
    unfold taken
    rw [run, List.foldl_cons]
    cases hstep : step.apply xs with
    | ok b ys => exact .cons (exists_apply_eq_ok.1 ⟨b, hstep⟩) (hrest ys)
    | error e ys =>
      rw [h step List.mem_cons_self hstep]
      exact hrest xs

/-- And as what they make is one list, it is that list and no other. -/
theorem makesAll_iff (h : ∀ step ∈ steps, (step.apply : Edit (List (Carrier t)) Bool).Atomic) :
    MakesAll (taken steps xs) xs ys ↔ ys = run steps xs := by
  constructor
  · exact fun hys => makesAll_unique hys (makesAll_run h)
  · rintro rfl
    exact makesAll_run h

end Step

end UniformList

/-! ## All of it -/

/-- A variant of a choice is none of its candidates, and not the choice by itself. -/
theorem ChoiceType.ne_variant {c : ChoiceType} {type : NodeType}
    (h : type = .bare c ∨ ∃ i : Fin (Choice.candidates c.Carrier).length,
      type = Choice.Coded.code NodeType.Carrier i) : type ≠ .variant c := by
  have hcodes : ∀ code ∈ Choice.Coded.codes NodeType.Carrier c.Carrier, code.2 ≠ .variant c := by
    cases c <;> decide
  rcases h with rfl | ⟨i, rfl⟩
  · nofun
  · exact hcodes _ (List.get_mem _ _)

namespace UniformList

/-- **A list is a plain sequence of what succeeded**, whatever types there are and whichever of
them its items are of. A change succeeds just where it makes something of a sequence, and then
the list is that. A node of any type is taken as an item if it is of the type of the items, and
joins if it is a list of these; one for the other is refused as of another type, and so is any
other node. An array is refused with any of its items. A change that is refused leaves the list
as it was, if that holds of the items, and needs it of them only for a load in place; so after
a run the list is what the changes that were not refused make of it, in their order, and nothing
else. The types of nodes in the catalog are such, and a list of variants refuses the candidates
by themselves. -/
theorem holds_what_succeeded :
    (∀ {κ : Type} [DecidableEq κ] (Carrier : κ → Type) [∀ t, Node (Carrier t)] [Listed Carrier]
        (t : κ),
      (∀ (step : Step Carrier t) (xs ys : List (Carrier t)),
        (∃ b, step.apply xs = .ok b ys) ↔ Makes step xs ys) ∧
      (∀ (x : Erased Carrier) (xs : List (Carrier t)),
        ((∃ b ys, (Step.pushAny x).apply xs = .ok b ys) ↔ x.type = t) ∧
        ((∃ b ys, (Step.appendAny x).apply xs = .ok b ys) ↔ x.type = Listed.list Carrier t) ∧
        (x.type ≠ t → (Step.pushAny x).Mismatch xs) ∧
        (x.type ≠ Listed.list Carrier t → (Step.appendAny x).Mismatch xs)) ∧
      (∀ (item : Carrier t) (more : Carrier (Listed.list Carrier t)) (xs : List (Carrier t)),
        (Step.appendAny ⟨t, item⟩).Mismatch xs ∧
          (Step.pushAny ⟨Listed.list Carrier t, more⟩).Mismatch xs) ∧
      (∀ (js : List Json) (xs : List (Carrier t)),
        (∃ j ∈ js, ∃ e, (Node.ofJson j : Except Error (Carrier t)) = .error e) →
          ∃ e, (Step.load (.array js) : Step Carrier t).apply xs = .error e xs) ∧
      (∀ step : Step Carrier t, Node.Atomic (Carrier t) ∨ (∀ i j, step ≠ .loadAt i j) →
        ∀ xs ys e, step.apply xs = .error e ys → ys = xs) ∧
      ∀ steps : List (Step Carrier t),
        Node.Atomic (Carrier t) ∨ (∀ i j, .loadAt i j ∉ steps) → ∀ xs,
          (Step.taken steps xs).Sublist steps ∧
            ∀ ys, MakesAll (Step.taken steps xs) xs ys ↔ ys = Step.run steps xs) ∧
    (∀ (t : NodeType) (xs : List t.Carrier),
      (∀ (step : ListStep t) ys e, step.apply xs = .error e ys → ys = xs) ∧
      ∀ steps : List (ListStep t), (Step.taken steps xs).Sublist steps ∧
        ∀ ys, MakesAll (Step.taken steps xs) xs ys ↔ ys = Step.run steps xs) ∧
    ∀ (c : ChoiceType) (x : AnyNode) (xs : List (NodeType.Carrier (.variant c))),
      (x.type = .bare c ∨ ∃ i : Fin (Choice.candidates c.Carrier).length,
        x.type = Choice.Coded.code NodeType.Carrier i) → (Step.pushAny x).Mismatch xs := by
  refine ⟨?_, ?_, ?_⟩
  · intro κ _ Carrier _ _ t
    refine ⟨?_, ?_, ?_, ?_, ?_, ?_⟩
    · intro step xs ys
      exact Step.exists_apply_eq_ok
    · intro x xs
      exact ⟨Step.exists_apply_pushAny, Step.exists_apply_appendAny, Step.mismatch_pushAny,
        Step.mismatch_appendAny⟩
    · intro item more xs
      exact ⟨Step.mismatch_appendAny (Listed.list_ne t).symm,
        Step.mismatch_pushAny (Listed.list_ne t)⟩
    · rintro js xs ⟨j, hj, e, he⟩
      exact Step.exists_apply_load_eq_error hj he
    · intro step h xs ys e he
      exact Step.atomic h he
    · intro steps h xs
      refine ⟨Step.taken_sublist steps xs, fun ys => Step.makesAll_iff fun step hstep => ?_⟩
      exact Step.atomic (h.imp_right fun hother i j heq => hother i j (heq ▸ hstep))
  · intro t xs
    refine ⟨fun step ys e he => Step.atomic (.inl (NodeType.atomic t)) he, fun steps => ?_⟩
    exact ⟨Step.taken_sublist steps xs,
      fun ys => Step.makesAll_iff fun step _ => Step.atomic (.inl (NodeType.atomic t))⟩
  · intro c x xs h
    exact Step.mismatch_pushAny (ChoiceType.ne_variant h)

/-- Changes of a list of variants: one is offered, and then a candidate by itself, a list of
variants as an item and a variant as a list, a list to join, an array with an item that is none,
null for the variant that is set by then, and something for an index with nothing. -/
def contested : List (ListStep (.variant .checked)) :=
  [.pushAny ⟨.variant .checked, some (.positive Record.initial)⟩,
    .pushAny ⟨.label, (Record.initial : Label)⟩,
    .pushAny ⟨.list (.variant .checked), [none]⟩, .appendAny ⟨.variant .checked, none⟩,
    .appendAny ⟨.list (.variant .checked), [none]⟩, .load (.array [.null, .ofInt 5]),
    .loadAt 0 .null, .loadAt 5 .null]

/-- What the list holds in the end. -/
def settled : List (Option Checked) := [some (.positive Record.initial), none]

/-- Of the changes the first, the list that joins and the last are made, and the others leave
no trace. -/
theorem holds_what_succeeded_contested :
    MakesAll [.pushAny ⟨.variant .checked, some (.positive Record.initial)⟩,
      .appendAny ⟨.list (.variant .checked), [none]⟩, .loadAt 5 .null]
      ([] : List (NodeType.Carrier (.variant .checked))) settled ∧
    (Step.pushAny ⟨.label, (Record.initial : Label)⟩ : ListStep (.variant .checked)).Mismatch
      settled ∧
    (∃ e, (Step.load (.array [.null, .ofInt 5]) : ListStep (.variant .checked)).apply settled =
      .error e settled) ∧
    (∃ e ys, (Step.loadAt 0 .null : ListStep (.variant .checked)).apply settled = .error e ys ∧
      ys = settled) ∧
    (Step.appendAny ⟨.single, (1 : Single)⟩ : ListStep .single).Mismatch [] ∧
    MakesAll [(.push (1 : Single) : ListStep .single)] [] [1] := by
  have hgeneral := holds_what_succeeded.1 NodeType.Carrier (.variant .checked)
  have hsingle := holds_what_succeeded.1 NodeType.Carrier .single
  refine ⟨?_, ?_, ?_, ⟨_, _, rfl, ?_⟩, ?_, ?_⟩
  · exact ((holds_what_succeeded.2.1 (.variant .checked) []).2 contested).2 settled |>.2 rfl
  · exact holds_what_succeeded.2.2 .checked ⟨.label, Record.initial⟩ settled (.inr ⟨1, rfl⟩)
  · exact hgeneral.2.2.2.1 _ settled ⟨.ofInt 5, by simp, _, rfl⟩
  · exact hgeneral.2.2.2.2.1 (.loadAt 0 .null) (.inl (NodeType.atomic _)) settled _ _ rfl
  · exact (hsingle.2.1 ⟨.single, (1 : Single)⟩ []).2.2.2 (by decide)
  · exact (hsingle.2.2.2.2.2 [.push (1 : Single)] (.inr (by simp)) []).2 [1] |>.2 rfl

end UniformList

end MapDocument
