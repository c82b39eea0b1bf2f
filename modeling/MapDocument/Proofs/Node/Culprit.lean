import MapDocument.Proofs.Node.Schema
/-!
# Nodes — where a load is refused

The place of an error is put together on the way out, step by step, by
records, lists and variants. Read from the outside in it leads to a part of
the text form that is refused on its own, and everything that comes before
it, in the order in which fields are declared and items stand, can be
loaded. `Node.Schema.LeadsTo` says both, with the schema of the part, and so
with the value it is loaded into.
-/

namespace MapDocument

/-- The value at a place of a text form: a field is a key of an object, and an
index stands for an item of an array. -/
def Json.at? (j : Json) : List PathStep → Option Json
  | [] => some j
  | .field name :: path =>
    match j with
    | object members => (members.lookup name).bind fun v => v.at? path
    | _ => none
  | .index i :: path =>
    match j with
    | array items => items[i]?.bind fun v => v.at? path
    | _ => none

namespace Node.Schema

/-- A path leads from a text form to a part of it, and from the schema of the whole to
the schema of the part, past nothing that is refused: the fields declared before, the
items before, and the number of the candidate can all be loaded. -/
inductive LeadsTo : {α : Type} → [Node α] → {x : α} → Node.Schema α x → Json → List PathStep →
    {β : Type} → [Node β] → {y : β} → Node.Schema β y → Json → Prop
  | here {α : Type} [Node α] {x : α} (schema : Node.Schema α x) (j : Json) :
      LeadsTo schema j [] schema j
  | field {σ : Type} [Record σ] {law : Record.Restoring σ}
      {fields : (i : Fin (Record.fields σ).length) →
        Node.Schema ((Record.fields σ).get i).Value ((Record.fields σ).get i).initial}
      {members : List (String × Json)} (i : Fin (Record.fields σ).length) {v : Json}
      (member : members.lookup ((Record.fields σ).get i).name = some v)
      (before : ∀ k < i, (Edit.eval (((Record.fields σ).get k).load
        (members.lookup ((Record.fields σ).get k).name))
          ((Record.fields σ).get k).initial).isOk = true)
      {path : List PathStep} {β : Type} [Node β] {y : β} {part : Node.Schema β y} {w : Json}
      (inside : LeadsTo (fields i) v path part w) :
      LeadsTo (record law fields) (.object members)
        (.field ((Record.fields σ).get i).name :: path) part w
  | item {α : Type} [Node α] {item : Node.Schema α Node.initial} {xs : List α}
      {items : List Json} {i : Nat} {v : Json} (found : items[i]? = some v)
      (before : ∀ k < i, ∀ w, items[k]? = some w → (Node.ofJson w : Except Error α).isOk = true)
      {path : List PathStep} {β : Type} [Node β] {y : β} {part : Node.Schema β y} {w : Json}
      (inside : LeadsTo item v path part w) :
      LeadsTo (list item xs) (.array items) (.index i :: path) part w
  | data {σ : Type} [Choice σ] {law : Choice.Restoring σ}
      {candidates : (i : Fin (Choice.candidates σ).length) →
        Node.Schema ((Choice.candidates σ).get i).Value Node.initial} {held : Option σ}
      {members : List (String × Json)} (i : Fin (Choice.candidates σ).length) {v : Json}
      (selected : Variant.initialOf σ members = .ok (Choice.join ⟨i, Node.initial⟩))
      (member : members.lookup "data" = some v)
      {path : List PathStep} {β : Type} [Node β] {y : β} {part : Node.Schema β y} {w : Json}
      (inside : LeadsTo (candidates i) v path part w) :
      LeadsTo (variant law candidates held) (.object members) (.field "data" :: path) part w

/-- Where a path leads is at that place of the text form. -/
theorem LeadsTo.at?_eq_some {α : Type} [Node α] {x : α} {schema : Node.Schema α x} {j v : Json}
    {path : List PathStep} {β : Type} [Node β] {y : β} {part : Node.Schema β y}
    (h : schema.LeadsTo j path part v) : j.at? path = some v := by
  induction h with
  | here schema j => rfl
  | field i member before inside ih => rw [Json.at?, member, Option.bind_some, ih]
  | item found before inside ih => rw [Json.at?, found, Option.bind_some, ih]
  | data i selected member inside ih => rw [Json.at?, member, Option.bind_some, ih]

end Node.Schema

/-! ## The first of several -/

/-- Of fields that start from their defaults, the first that is refused is the one
whose error is seen. -/
theorem Field.exists_of_eval_loadAll_eq_error {members : List (String × Json)} {fs : List Field}
    {e : Error} (h : Edit.eval (loadAll members fs) (initials fs) = .error e) :
    ∃ i : Fin fs.length,
      Edit.eval ((fs.get i).load (members.lookup (fs.get i).name)) (fs.get i).initial = .error e ∧
      ∀ k < i, (Edit.eval ((fs.get k).load (members.lookup (fs.get k).name))
        (fs.get k).initial).isOk = true := by
  induction fs with
  | nil => cases h
  | cons f fs ih =>
    rw [initials, eval_loadAll_cons] at h
    rcases bind_eq_error.1 h with h | ⟨y, hy, h⟩
    · exact ⟨⟨0, Nat.zero_lt_succ _⟩, h, fun k hk => absurd hk (Nat.not_lt_zero _)⟩
    · have hrest : Edit.eval (loadAll members fs) (initials fs) = .error e := by
        rcases bind_eq_error.1 h with h | ⟨ys, -, h⟩
        · exact h
        · cases h
      obtain ⟨i, hi, hbefore⟩ := ih hrest
      refine ⟨i.succ, hi, fun k hk => ?_⟩
      cases k using Fin.cases with
      | zero => exact isOk_iff.2 ⟨y, hy⟩
      | succ k => exact hbefore k (Fin.succ_lt_succ_iff.1 hk)

/-- Of items, the first that is refused is the one whose error is seen. -/
theorem Node.exists_of_ofItems_eq_error {α : Type} [Node α] {items : List Json} {index : Nat}
    {e : Error} (h : (Node.ofItems index items : Except Error (List α)) = .error e) :
    ∃ i v e', items[i]? = some v ∧ (Node.ofJson v : Except Error α) = .error e' ∧
      e'.within (.index (index + i)) = e ∧
      ∀ k < i, ∀ w, items[k]? = some w → (Node.ofJson w : Except Error α).isOk = true := by
  induction items generalizing index with
  | nil => cases h
  | cons first items ih =>
    rcases bind_eq_error.1 h with h | ⟨x, hx, h⟩
    · obtain ⟨e', he', he⟩ := locating_eq_error.1 h
      exact ⟨0, first, e', rfl, he', he, fun k hk => absurd hk (Nat.not_lt_zero k)⟩
    · have hrest : (Node.ofItems (index + 1) items : Except Error (List α)) = .error e := by
        rcases bind_eq_error.1 h with h | ⟨xs, -, h⟩
        · exact h
        · cases h
      obtain ⟨i, v, e', hv, he', he, hbefore⟩ := ih hrest
      refine ⟨i + 1, v, e', hv, he', ?_, fun k hk w hw => ?_⟩
      · rw [← he, Nat.add_assoc, Nat.add_comm 1 i]
      · cases k with
        | zero =>
          cases hw
          exact isOk_iff.2 ⟨x, locating_eq_ok.1 hx⟩
        | succ k => exact hbefore k (Nat.lt_of_succ_lt_succ hk) w hw

/-! ## What refuses a record, a list, a variant -/

/-- A record that starts from its defaults is refused as a whole, or at the first field
that is. -/
theorem Record.eval_load_initial_eq_error {σ : Type} [Record σ] {j : Json} {e : Error}
    (h : Edit.eval (Node.load j) (Record.initial : σ) = .error e) :
    e.path = [] ∨ ∃ members, j = .object members ∧
      ∃ (i : Fin (fields σ).length) (v : Json) (e' : Error),
        members.lookup ((fields σ).get i).name = some v ∧
        Edit.eval (Node.load v) ((fields σ).get i).initial = .error e' ∧
        e'.within (.field ((fields σ).get i).name) = e ∧
        ∀ k < i, (Edit.eval (((fields σ).get k).load (members.lookup ((fields σ).get k).name))
          ((fields σ).get k).initial).isOk = true := by
  cases j with
  | object members =>
    rw [eval_load_object, Record.initial, split_join] at h
    have hfields : Edit.eval (Field.loadAll members (fields σ)) (Field.initials (fields σ)) =
        .error e := by
      rcases bind_eq_error.1 h with h | ⟨xs, -, h⟩
      · exact h
      · cases h
    obtain ⟨i, hi, hbefore⟩ := Field.exists_of_eval_loadAll_eq_error hfields
    refine .inr ⟨members, rfl, i, ?_⟩
    cases hmember : members.lookup ((fields σ).get i).name with
    | none =>
      rw [hmember] at hi
      cases hi
    | some v =>
      rw [hmember, Field.eval_load_some] at hi
      obtain ⟨e', he', he⟩ := locating_eq_error.1 hi
      exact ⟨v, e', rfl, he', he, hbefore⟩
  | _ =>
    cases h
    exact .inl rfl

/-- A list is refused as a whole, or at the first item that is. -/
theorem Node.eval_load_list_eq_error {α : Type} [Node α] {j : Json} {xs : List α} {e : Error}
    (h : Edit.eval (Node.load j) xs = .error e) :
    e.path = [] ∨ ∃ items, j = .array items ∧ ∃ i v e', items[i]? = some v ∧
      (Node.ofJson v : Except Error α) = .error e' ∧ e'.within (.index i) = e ∧
      ∀ k < i, ∀ w, items[k]? = some w → (Node.ofJson w : Except Error α).isOk = true := by
  rw [Node.eval_load_list] at h
  cases j with
  | array items =>
    obtain ⟨i, v, e', hv, he', he, hbefore⟩ := Node.exists_of_ofItems_eq_error h
    rw [Nat.zero_add] at he
    exact .inr ⟨items, rfl, i, v, e', hv, he', he, hbefore⟩
  | _ =>
    cases h
    exact .inl rfl

namespace Variant

variable {σ : Type} [Choice σ]

/-- A type that selects no candidate is refused with the whole variant. -/
theorem placeless_initialOf (members : List (String × Json)) :
    Placeless (initialOf σ members) := by
  unfold initialOf
  split
  · exact placeless_of _
  · split
    · exact placeless_of _
    · split
      · exact placeless_of _
      · exact placeless_ok _

/-- A variant is refused as a whole, or at the data of the candidate it selects. -/
theorem eval_load_eq_error {j : Json} {held : Option σ} {e : Error}
    (h : Edit.eval (Node.load j) held = .error e) :
    e.path = [] ∨ ∃ members, j = .object members ∧
      ∃ (i : Fin (Choice.candidates σ).length) (v : Json) (e' : Error),
        initialOf σ members = .ok (Choice.join ⟨i, Node.initial⟩) ∧
        members.lookup "data" = some v ∧
        Edit.eval (Node.load v) (Node.initial : ((Choice.candidates σ).get i).Value) = .error e' ∧
        e'.within (.field "data") = e := by
  cases j with
  | null =>
    cases held with
    | none => cases h
    | some s =>
      cases h
      exact .inl rfl
  | object members =>
    have hread : (ofJson (.object members) : Except Error σ) = .error e := by
      rw [eval_load (j := .object members) nofun] at h
      exact map_eq_error.1 h
    rcases bind_eq_error.1 hread with hread | ⟨members', hmembers, hread⟩
    · cases hread
    cases hmembers
    rcases bind_eq_error.1 hread with htype | ⟨s, hs, hdata⟩
    · exact .inl (placeless_initialOf members htype)
    obtain ⟨_, i, -, -, rfl⟩ := initialOf_eq_ok.1 hs
    unfold loadData at hdata
    split at hdata
    · cases hdata
    · rename_i v hv
      obtain ⟨e', he', he⟩ := locating_eq_error.1 hdata
      rw [Choice.eval_load_join] at he'
      exact .inr ⟨members, rfl, i, v, e', hs, hv, map_eq_error.1 he', he⟩
  | _ =>
    cases h
    exact .inl rfl

end Variant

/-! ## Schemas -/

namespace Node.Schema

/-- The part of a text form at the place of an error, with its schema: it is refused on its
own with the same fault, and all that comes before it can be loaded. -/
def Culprit {α : Type} [Node α] {x : α} (schema : Node.Schema α x) (j : Json) (e : Error) : Prop :=
  ∃ (β : Type) (_ : Node β) (y : β) (part : Node.Schema β y) (v : Json),
    schema.LeadsTo j e.path part v ∧ Edit.eval (Node.load v) y = .error ⟨e.fault, []⟩

/-- An error without a place is that of the whole. -/
theorem culprit_of_path_eq_nil {α : Type} [Node α] {x : α} (schema : Node.Schema α x) {j : Json}
    {e : Error} (h : Edit.eval (Node.load j) x = .error e) (hpath : e.path = []) :
    schema.Culprit j e := by
  obtain ⟨fault, path⟩ := e
  cases hpath
  exact ⟨α, _, x, schema, j, .here schema j, h⟩

/-- **An error leads to its culprit**, whatever the schema. -/
theorem culprit_of_error {α : Type} [Node α] {x : α} (schema : Node.Schema α x) {j : Json}
    {e : Error} (h : Edit.eval (Node.load j) x = .error e) : schema.Culprit j e := by
  -- the culprit inside is the culprit of the whole, one step further in
  induction schema generalizing j e with
  | leaf x whole => exact culprit_of_path_eq_nil _ h (whole j h)
  | record law fields ih =>
    rcases Record.eval_load_initial_eq_error h with
      hpath | ⟨members, rfl, i, v, e', hv, he', rfl, hbefore⟩
    · exact culprit_of_path_eq_nil _ h hpath
    · obtain ⟨β, _, y, part, w, hpart, hw⟩ := ih i he'
      exact ⟨β, _, y, part, w, .field i hv hbefore hpart, hw⟩
  | list item xs ih =>
    rcases Node.eval_load_list_eq_error h with
      hpath | ⟨items, rfl, i, v, e', hv, he', rfl, hbefore⟩
    · exact culprit_of_path_eq_nil _ h hpath
    · obtain ⟨β, _, y, part, w, hpart, hw⟩ := ih he'
      exact ⟨β, _, y, part, w, .item hv hbefore hpart, hw⟩
  | variant law candidates held ih =>
    rcases Variant.eval_load_eq_error h with
      hpath | ⟨members, rfl, i, v, e', hs, hv, he', rfl⟩
    · exact culprit_of_path_eq_nil _ h hpath
    · obtain ⟨β, _, y, part, w, hpart, hw⟩ := ih i he'
      exact ⟨β, _, y, part, w, .data i hs hv hpart, hw⟩

end Node.Schema

end MapDocument
