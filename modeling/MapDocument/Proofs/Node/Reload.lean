import MapDocument.Proofs.Node.Leaf
import MapDocument.Proofs.Node.Regular
import Mathlib.Data.List.Forall2
/-!
# Nodes — text forms that give the node back

Two sorts of values come back from their text form: those that have a binary
form, and those that were loaded. The first come back whatever the node held
before, as they have nothing in them that the text form lacks. The second
come back where they were loaded; a variant that holds nothing is one of
these, and comes back only where nothing was held.

A load starts from what the node holds, so every statement says what that
is. A record that does not mention a field gives it its default, which has a
binary form and so is of the first sort; a variant without data gives the
default of its candidate, which has to come back in a fresh node.
-/

namespace MapDocument

/-- Values that have a binary form come back from their text form, whatever the
node held before. -/
def Node.ReloadsEncoded (α : Type) [Node α] : Prop :=
  ∀ ⦃v : α⦄ ⦃p : Bytes⦄, Node.encode v = .ok p → ∀ s, Node.load (Node.toJson v) s = .ok () v

/-- Values that were loaded come back from their text form where they were loaded. -/
def Node.ReloadsLoaded (α : Type) [Node α] : Prop :=
  ∀ ⦃j : Json⦄ ⦃s v : α⦄, Node.load j s = .ok () v → Node.load (Node.toJson v) s = .ok () v

/-- Values of both sorts come back, and so does the default in a fresh node. -/
structure Node.Reloads (α : Type) [Node α] : Prop where
  encoded : Node.ReloadsEncoded α
  loaded : Node.ReloadsLoaded α
  initial : Node.load (Node.toJson (Node.initial : α)) (Node.initial : α) = .ok () Node.initial

/-- A fresh node comes back in a fresh node. -/
theorem Node.ReloadsLoaded.ofJson {α : Type} [Node α] (h : Node.ReloadsLoaded α) {j : Json} {v : α}
    (hv : Node.ofJson j = .ok v) : Node.ofJson (Node.toJson v) = .ok v :=
  Edit.eval_eq_ok.2 (h (Edit.eval_eq_ok.1 hv))

/-! ## Leaves -/

/-- A leaf is replaced by what is read, so it comes back if what was written is
read back, for the values that have a binary form and for those that were read. -/
theorem Node.reloads_of_assign {α : Type} [Node α] (read : Json → Except Error α)
    (hload : ∀ j, (Node.load j : Edit α Unit) = Edit.assign (read j))
    (hencoded : ∀ {v : α} {p}, Node.encode v = .ok p → read (Node.toJson v) = .ok v)
    (hread : ∀ {j v}, read j = .ok v → read (Node.toJson v) = .ok v)
    (hinitial : (Node.encode (Node.initial : α)).isOk = true) : Node.Reloads α where
  encoded v p hv s := by
    rw [hload]
    exact Edit.assign_eq_ok.2 (hencoded hv)
  loaded j s v hv := by
    rw [hload] at hv ⊢
    exact Edit.assign_eq_ok.2 (hread (Edit.assign_eq_ok.1 hv))
  initial := by
    obtain ⟨p, hp⟩ := isOk_iff.1 hinitial
    rw [hload]
    exact Edit.assign_eq_ok.2 (hencoded hp)

theorem Single.reloads : Node.Reloads Single := by
  refine Node.reloads_of_assign Json.asSingle (fun _ => rfl) ?_ ?_ rfl
  · intro x p hx
    exact Json.asSingle_ofSingle ((Bytes.ofFinite_eq_ok.1 hx).1 x List.mem_cons_self)
  · intro j x hx
    exact Json.asSingle_ofSingle (Json.isFinite_of_asSingle hx)

theorem Int32.reloads : Node.Reloads Int32 :=
  Node.reloads_of_assign Json.asInt32 (fun _ => rfl) (fun _ => Json.asInt32_ofInt _)
    (fun _ => Json.asInt32_ofInt _) rfl

theorem Bool.reloads : Node.Reloads Bool :=
  Node.reloads_of_assign Json.asBool (fun _ => rfl) (fun _ => rfl) (fun _ => rfl) rfl

theorem Vec3.reloads : Node.Reloads Vec3 := by
  refine Node.reloads_of_assign Json.asVec3 (fun _ => rfl) ?_ ?_ rfl
  · intro a p ha
    exact Json.asVec3_ofSingles (Bytes.ofFinite_eq_ok.1 ha).1
  · intro j a ha
    exact Json.asVec3_ofSingles (Json.isFinite_of_asVec3 ha)

theorem Quaternion.reloads : Node.Reloads Quaternion := by
  refine Node.reloads_of_assign Json.asQuaternion (fun _ => rfl) ?_ ?_ (by decide)
  · intro a p ha
    exact Json.asQuaternion_ofSingles (Bytes.ofFinite_eq_ok.1 ha).1
  · intro j a ha
    exact Json.asQuaternion_ofSingles (Json.isFinite_of_asQuaternion ha)

theorem Identifier.reloads : Node.Reloads Identifier :=
  Node.reloads_of_assign (fun j => j.asString >>= Identifier.ofText) (fun _ => rfl)
    (fun _ => bind_eq_ok.2 ⟨_, rfl, Identifier.ofText_text _⟩)
    (fun _ => bind_eq_ok.2 ⟨_, rfl, Identifier.ofText_text _⟩) rfl

theorem FloatBuffer.reloads : Node.Reloads FloatBuffer :=
  Node.reloads_of_assign (fun j => j.asString >>= FloatBuffer.ofText) (fun _ => rfl)
    (fun _ => bind_eq_ok.2 ⟨_, rfl, FloatBuffer.ofText_text _⟩)
    (fun _ => bind_eq_ok.2 ⟨_, rfl, FloatBuffer.ofText_text _⟩) (by decide)

/-! ## Fields -/

namespace Field

/-- Every field comes back where the values in its place were held. -/
def ReloadAll : (fs : List Field) → Values fs → Values fs → Prop
  | [], _, _ => True
  | _ :: fs, (s, ss), (x, xs) => Node.load (Node.toJson x) s = .ok () x ∧ ReloadAll fs ss xs

/-- Members that give the text forms of values under the names of their fields. -/
def FoundAll (members : List (String × Json)) : (fs : List Field) → Values fs → Prop
  | [], _ => True
  | f :: fs, (x, xs) => members.lookup f.name = some (Node.toJson x) ∧ FoundAll members fs xs

/-- A member of another name hides nothing. -/
theorem FoundAll.cons {members : List (String × Json)} {fs : List Field} {xs : Values fs}
    {name : String} {j : Json} (h : FoundAll members fs xs) (hname : name ∉ fs.map Field.name) :
    FoundAll ((name, j) :: members) fs xs := by
  induction fs with
  | nil => trivial
  | cons f fs ih =>
    obtain ⟨x, xs⟩ := xs
    rw [List.map_cons, List.mem_cons, not_or] at hname
    refine ⟨?_, ih h.2 hname.2⟩
    rw [List.lookup_cons, beq_false_of_ne (Ne.symm hname.1)]
    exact h.1

/-- Under names of their own, all values are found. -/
theorem foundAll_toMembers {fs : List Field} (hnames : (fs.map Field.name).Nodup)
    (xs : Values fs) : FoundAll (toMembers fs xs) fs xs := by
  induction fs with
  | nil => trivial
  | cons f fs ih =>
    obtain ⟨x, xs⟩ := xs
    rw [List.map_cons, List.nodup_cons] at hnames
    exact ⟨List.lookup_cons_self, (ih hnames.2 xs).cons hnames.1⟩

/-- Values that are found and come back one by one come back together. -/
theorem loadAll_of_foundAll {members : List (String × Json)} {fs : List Field} {s xs : Values fs}
    (hfound : FoundAll members fs xs) (hreload : ReloadAll fs s xs) :
    loadAll members fs s = .ok () xs := by
  induction fs with
  | nil => rfl
  | cons f fs ih =>
    obtain ⟨x, xs⟩ := xs
    obtain ⟨y, ys⟩ := s
    have hload : f.load (members.lookup f.name) y = .ok () x := by
      rw [hfound.1]
      exact Edit.within_eq_ok.2 hreload.1
    simp only [loadAll, hload, ih hfound.2 hreload.2]

/-- Fields have a binary form when the first has one and the others have. -/
theorem exists_encodeAll_cons {f : Field} {fs : List Field} {x : f.Value} {xs : Values fs}
    {p : Bytes} (hx : Node.encode x = .ok p) (hxs : ∃ q, encodeAll fs xs = .ok q) :
    ∃ q, encodeAll (f :: fs) (x, xs) = .ok q := by
  obtain ⟨q, hq⟩ := hxs
  exact ⟨p ++ q, append_eq_ok.2 ⟨p, q, locating_eq_ok.2 hx, hq, rfl⟩⟩

/-- Values that have binary forms come back, whatever was held. -/
theorem reloadAll_of_encodeAll {fs : List Field}
    (hfields : ∀ f ∈ fs, Node.ReloadsEncoded f.Value) {s xs : Values fs} {p : Bytes}
    (h : encodeAll fs xs = .ok p) : ReloadAll fs s xs := by
  induction fs generalizing p with
  | nil => trivial
  | cons f fs ih =>
    obtain ⟨x, xs⟩ := xs
    obtain ⟨y, ys⟩ := s
    obtain ⟨q, r, hx, hxs, -⟩ := append_eq_ok.1 h
    exact ⟨hfields f List.mem_cons_self (locating_eq_ok.1 hx) y,
      ih (fun g hg => hfields g (List.mem_cons_of_mem f hg)) hxs⟩

/-- A load of fields is a load of the first and of the others. -/
theorem loadAll_cons_eq_ok {members : List (String × Json)} {f : Field} {fs : List Field}
    {y x : f.Value} {ys xs : Values fs} :
    loadAll members (f :: fs) (y, ys) = .ok () (x, xs) ↔
      f.load (members.lookup f.name) y = .ok () x ∧ loadAll members fs ys = .ok () xs := by
  simp only [loadAll]
  cases f.load (members.lookup f.name) y with
  | error e x' => exact ⟨nofun, nofun⟩
  | ok u x' =>
    cases loadAll members fs ys with
    | error e xs' => exact ⟨nofun, nofun⟩
    | ok u' xs' =>
      constructor
      · intro h
        cases h
        exact ⟨rfl, rfl⟩
      · rintro ⟨hx, hxs⟩
        cases hx
        cases hxs
        rfl

/-- Values that were loaded come back where they were loaded: members because
they were loaded, and defaults because they have binary forms. -/
theorem reloadAll_of_loadAll {members : List (String × Json)} {fs : List Field}
    (hfields : ∀ f ∈ fs, Node.ReloadsEncoded f.Value ∧ Node.ReloadsLoaded f.Value)
    {p : Bytes} (hinitials : encodeAll fs (initials fs) = .ok p) {s xs : Values fs}
    (h : loadAll members fs s = .ok () xs) : ReloadAll fs s xs := by
  induction fs generalizing p with
  | nil => trivial
  | cons f fs ih =>
    obtain ⟨y, ys⟩ := s
    obtain ⟨x, xs⟩ := xs
    obtain ⟨q, r, hinitial, hrest, -⟩ := append_eq_ok.1 hinitials
    obtain ⟨hencoded, hloaded⟩ := hfields f List.mem_cons_self
    obtain ⟨hx, hxs⟩ := loadAll_cons_eq_ok.1 h
    refine ⟨?_, ih (fun g hg => hfields g (List.mem_cons_of_mem f hg)) hrest hxs⟩
    -- a member is loaded once more; a default was no load, but has a binary form
    cases hmember : members.lookup f.name with
    | some j =>
      rw [hmember] at hx
      exact hloaded (Edit.within_eq_ok.1 hx)
    | none =>
      rw [hmember] at hx
      cases hx
      exact hencoded (locating_eq_ok.1 hinitial) y

end Field

/-! ## Records -/

namespace Record

variable {σ : Type} [Record σ]

/-- What a load of an object makes of a record: the fields loaded one by one,
put right. -/
theorem load_object_eq_ok {members : List (String × Json)} {s v : σ} :
    Record.load (.object members) s = .ok () v ↔
      ∃ xs, Field.loadAll members (fields σ) (split s) = .ok () xs ∧ v = settle (join xs) := by
  have hload : Record.load (.object members) s = Edit.staged (loadFields members) s := rfl
  rw [hload, Edit.staged_eq_ok, loadFields]
  cases Field.loadAll members (fields σ) (split s) with
  | error e xs => exact ⟨nofun, nofun⟩
  | ok u xs =>
    constructor
    · intro h
      cases h
      exact ⟨xs, rfl, rfl⟩
    · rintro ⟨xs', hxs, rfl⟩
      cases hxs
      rfl

/-- Only objects are loaded. -/
theorem load_eq_ok {j : Json} {s v : σ} (h : Record.load j s = .ok () v) :
    ∃ members xs, Field.loadAll members (fields σ) (split s) = .ok () xs ∧
      v = settle (join xs) := by
  cases j with
  | object members => exact ⟨members, load_object_eq_ok.1 h⟩
  | _ => cases h

/-- A record comes back, put right, if its fields do. -/
theorem load_toJson (hnames : (fieldNames σ).Nodup) {s v : σ}
    (h : Field.ReloadAll (fields σ) (split s) (split v)) :
    Node.load (Node.toJson v) s = .ok () (settle v) := by
  have hfound := Field.foundAll_toMembers hnames (split v)
  refine load_object_eq_ok.2 ⟨split v, Field.loadAll_of_foundAll hfound h, ?_⟩
  rw [join_split]

/-- A record whose fields have binary forms where it has one comes back, if
nothing has to be put right. -/
theorem reloadsEncoded (hnames : (fieldNames σ).Nodup) (hsettle : ∀ v : σ, settle v = v)
    (hencode : ∀ {v : σ} {p}, Record.encode v = .ok p → ∃ q, encodeFields v = .ok q)
    (hfields : ∀ f ∈ fields σ, Node.ReloadsEncoded f.Value) : Node.ReloadsEncoded σ := by
  intro v p hv s
  obtain ⟨q, hq⟩ := hencode hv
  rw [load_toJson hnames (Field.reloadAll_of_encodeAll hfields hq), hsettle]

/-- A record of which all defaults have binary forms comes back where it was
loaded, if nothing has to be put right. -/
theorem reloadsLoaded (hnames : (fieldNames σ).Nodup) (hsettle : ∀ v : σ, settle v = v)
    (hinitial : (encodeFields (initial : σ)).isOk = true)
    (hfields : ∀ f ∈ fields σ, Node.ReloadsEncoded f.Value ∧ Node.ReloadsLoaded f.Value) :
    Node.ReloadsLoaded σ := by
  intro j s v hv
  obtain ⟨members, xs, hxs, rfl⟩ := load_eq_ok hv
  obtain ⟨p, hp⟩ := isOk_iff.1 hinitial
  rw [encodeFields, initial, split_join] at hp
  have hreload := Field.reloadAll_of_loadAll hfields hp hxs
  rw [hsettle]
  rw [← split_join xs] at hreload
  rw [load_toJson hnames hreload, hsettle]

/-- A record of which nothing has to be put right comes back if its fields do. -/
theorem reloads (hnames : (fieldNames σ).Nodup) (hsettle : ∀ v : σ, settle v = v)
    (hencode : ∀ {v : σ} {p}, Record.encode v = .ok p → ∃ q, encodeFields v = .ok q)
    (hinitial : (encodeFields (initial : σ)).isOk = true)
    (hfields : ∀ f ∈ fields σ, Node.Reloads f.Value) : Node.Reloads σ where
  encoded := reloadsEncoded hnames hsettle hencode fun f hf => (hfields f hf).encoded
  loaded := reloadsLoaded hnames hsettle hinitial
    fun f hf => ⟨(hfields f hf).encoded, (hfields f hf).loaded⟩
  initial := by
    obtain ⟨p, hp⟩ := isOk_iff.1 hinitial
    have hreload : Field.ReloadAll (fields σ) (split initial) (split initial) :=
      Field.reloadAll_of_encodeAll (fun f hf => (hfields f hf).encoded) hp
    exact (load_toJson hnames hreload).trans (congrArg _ (hsettle _))

end Record

/-! ## Lists -/

section Items

variable {α : Type} [Node α]

/-- **Items are loaded one by one, each into a fresh node**, and all of them or none. -/
theorem Node.ofItems_eq_ok {js : List Json} {xs : List α} {index : Nat} :
    Node.ofItems index js = .ok xs ↔ List.Forall₂ (fun j x => Node.ofJson j = .ok x) js xs := by
  induction js generalizing index xs with
  | nil =>
    rw [List.forall₂_nil_left_iff]
    constructor
    · intro h
      cases h
      rfl
    · rintro rfl
      rfl
  | cons j js ih =>
    rw [List.forall₂_cons_left_iff]
    constructor
    · intro h
      obtain ⟨x, hx, h⟩ := bind_eq_ok.1 h
      obtain ⟨ys, hys, h⟩ := bind_eq_ok.1 h
      cases h
      exact ⟨x, ys, locating_eq_ok.1 hx, ih.1 hys, rfl⟩
    · rintro ⟨x, ys, hx, hys, rfl⟩
      exact bind_eq_ok.2 ⟨x, locating_eq_ok.2 hx, bind_eq_ok.2 ⟨ys, ih.2 hys, rfl⟩⟩

/-- Items that come back one by one come back together. -/
theorem Node.ofItems_map_toJson {xs : List α} {index : Nat}
    (h : ∀ x ∈ xs, (Node.ofJson (Node.toJson x) : Except Error α) = .ok x) :
    Node.ofItems index (xs.map Node.toJson) = .ok xs :=
  Node.ofItems_eq_ok.2 (List.forall₂_map_left_iff.2 (List.forall₂_same.2 h))

/-- Each item of a list that was loaded was loaded into a fresh node. -/
theorem Node.ofJson_of_mem_ofItems {js : List Json} {xs : List α} {index : Nat}
    (h : Node.ofItems index js = .ok xs) : ∀ x ∈ xs, ∃ j, Node.ofJson j = .ok x := by
  intro x hx
  have hitems := Node.ofItems_eq_ok.1 h
  obtain ⟨k, hk, rfl⟩ := List.getElem_of_mem hx
  exact ⟨_, hitems.get (hitems.length_eq ▸ hk) hk⟩

/-- Each item of a list that has a binary form has one. -/
theorem Node.encode_of_mem_encodeItems {xs : List α} {index : Nat} {p : Bytes}
    (h : Node.encodeItems index xs = .ok p) : ∀ x ∈ xs, ∃ q, Node.encode x = .ok q := by
  induction xs generalizing index p with
  | nil => simp
  | cons y xs ih =>
    obtain ⟨q, r, hy, hxs, -⟩ := append_eq_ok.1 h
    intro x hx
    rcases List.mem_cons.1 hx with rfl | hx
    · exact ⟨q, locating_eq_ok.1 hy⟩
    · exact ih hxs x hx

/-- A list comes back if its items come back in fresh nodes. -/
theorem Node.load_toJson_list {xs : List α}
    (h : ∀ x ∈ xs, (Node.ofJson (Node.toJson x) : Except Error α) = .ok x) (s : List α) :
    Node.load (Node.toJson xs) s = .ok () xs :=
  Edit.assign_eq_ok.2 (Node.ofItems_map_toJson h)

theorem Node.reloadsEncoded_list (h : Node.ReloadsEncoded α) : Node.ReloadsEncoded (List α) := by
  intro xs p hxs s
  obtain ⟨c, q, -, hitems, -⟩ := append_eq_ok.1 hxs
  refine Node.load_toJson_list (fun x hx => ?_) s
  obtain ⟨r, hr⟩ := Node.encode_of_mem_encodeItems hitems x hx
  exact Edit.eval_eq_ok.2 (h hr Node.initial)

/-- **The items of a list come back as they came into fresh nodes**, so a list of
variants that hold nothing comes back too. -/
theorem Node.reloadsLoaded_list (h : Node.ReloadsLoaded α) : Node.ReloadsLoaded (List α) := by
  intro j s xs hxs
  obtain ⟨js, -, hitems⟩ := bind_eq_ok.1 (Edit.assign_eq_ok.1 hxs)
  refine Node.load_toJson_list (fun x hx => ?_) s
  obtain ⟨i, hi⟩ := Node.ofJson_of_mem_ofItems hitems x hx
  exact h.ofJson hi

theorem Node.reloads_list (h : Node.Reloads α) : Node.Reloads (List α) where
  encoded := Node.reloadsEncoded_list h.encoded
  loaded := Node.reloadsLoaded_list h.loaded
  initial := rfl

end Items

/-! ## Variants -/

namespace Choice

variable {σ : Type} [Choice σ]

/-- The candidates have a default each, and no other number has one. -/
theorem initial?_eq_some {n : Nat} {t : σ} :
    initial? σ n = some t ↔
      ∃ i : Fin (candidates σ).length, n = i.val ∧ t = join ⟨i, Node.initial⟩ := by
  unfold initial?
  split
  · rename_i h
    constructor
    · intro ht
      cases ht
      exact ⟨⟨n, h⟩, rfl, rfl⟩
    · rintro ⟨i, rfl, rfl⟩
      rfl
  · rename_i h
    constructor
    · nofun
    · rintro ⟨i, rfl, -⟩
      exact absurd i.isLt h

/-- A value is loaded as the value of its candidate is. -/
theorem load_join_eq_ok {j : Json} {i : Fin (candidates σ).length}
    {y : ((candidates σ).get i).Value} {t : σ} :
    Choice.load j (join ⟨i, y⟩) = .ok () t ↔ ∃ x, Node.load j y = .ok () x ∧ t = join ⟨i, x⟩ := by
  rw [Choice.load, split_join]
  dsimp only
  cases Node.load j y with
  | error e x => exact ⟨nofun, nofun⟩
  | ok u x =>
    constructor
    · intro h
      cases h
      exact ⟨x, rfl, rfl⟩
    · rintro ⟨x', hx, rfl⟩
      cases hx
      rfl

end Choice

/-- A whole number that is not too great is read back. -/
theorem Json.toNat?_ofInt {n : Nat} (h : n < 0x8000) : (ofInt n).toNat? = some n := by
  simp only [ofInt, toNat?, JsonNumber.toNat?]
  rw [if_pos (by omega), Int.toNat_natCast]

namespace Variant

variable {σ : Type} [Choice σ]

/-- The data of a text form, if there is any, loads into the default of a candidate. -/
inductive Filled {α : Type} [Node α] (members : List (String × Json)) : α → Prop
  | absent (h : members.lookup "data" = none) : Filled members Node.initial
  | loaded {j : Json} {x : α} (h : members.lookup "data" = some j)
      (hload : Node.load j (Node.initial : α) = .ok () x) : Filled members x

variable {members : List (String × Json)} {j : Json} {s t : σ}

/-- What has to be there for the candidate to be found. -/
theorem initialOf_eq_ok :
    initialOf σ members = .ok s ↔ ∃ k i, members.lookup "type" = some k ∧
      k.toNat? = some i.val ∧ s = Choice.join ⟨i, Node.initial⟩ := by
  unfold initialOf
  cases members.lookup "type" with
  | none => simp
  | some k =>
    cases hindex : k.toNat? with
    | none => simp [hindex]
    | some n =>
      refine Iff.trans (b := Choice.initial? σ n = some s) ?_ ?_
      · simp only [hindex]
        cases Choice.initial? σ n <;> simp
      · simp [hindex, Choice.initial?_eq_some]

/-- The candidate takes on its data, or has its default where there is none. -/
theorem loadData_join_eq_ok {i : Fin (Choice.candidates σ).length} :
    loadData members (Choice.join ⟨i, Node.initial⟩) = .ok t ↔
      ∃ x, Filled members x ∧ t = Choice.join ⟨i, x⟩ := by
  unfold loadData
  split
  · rename_i hdata
    constructor
    · intro h
      cases h
      exact ⟨_, .absent hdata, rfl⟩
    · rintro ⟨x, hx, rfl⟩
      cases hx with
      | absent _ => rfl
      | loaded h _ => simp [hdata] at h
  · rename_i j hdata
    rw [locating_eq_ok, Edit.eval_eq_ok, Choice.load_join_eq_ok]
    refine exists_congr fun x => and_congr_left fun _ => ⟨.loaded hdata, fun hx => ?_⟩
    cases hx with
    | absent h => simp [hdata] at h
    | loaded h hload =>
      rw [hdata] at h
      cases h
      exact hload

/-- **A variant is set to the default of a candidate, or to what was loaded into it.** -/
theorem ofJson_eq_ok :
    Variant.ofJson j = .ok t ↔ ∃ members k i x, j = .object members ∧
      members.lookup "type" = some k ∧ k.toNat? = some i.val ∧ Filled members x ∧
      t = Choice.join ⟨i, x⟩ := by
  constructor
  · intro h
    obtain ⟨members, hmembers, h⟩ := bind_eq_ok.1 h
    obtain ⟨s, hs, h⟩ := bind_eq_ok.1 h
    obtain ⟨k, i, hk, hi, rfl⟩ := initialOf_eq_ok.1 hs
    obtain ⟨x, hx, rfl⟩ := loadData_join_eq_ok.1 h
    cases j with
    | object _ =>
      cases hmembers
      exact ⟨members, k, i, x, rfl, hk, hi, hx, rfl⟩
    | _ => cases hmembers
  · rintro ⟨members, k, i, x, rfl, hk, hi, hx, rfl⟩
    exact bind_eq_ok.2 ⟨members, rfl, bind_eq_ok.2
      ⟨_, initialOf_eq_ok.2 ⟨k, i, hk, hi, rfl⟩, loadData_join_eq_ok.2 ⟨x, hx, rfl⟩⟩⟩

/-- **Null is for a variant that holds nothing**, and all else is what the variant then holds. -/
theorem load_eq_ok {v w : Option σ} :
    Variant.load j v = .ok () w ↔
      (j = .null ∧ v = none ∧ w = none) ∨ ∃ t, Variant.ofJson j = .ok t ∧ w = some t := by
  have hother : Edit.assign (some <$> (Variant.ofJson j : Except Error σ)) v = .ok () w ↔
      ∃ t, Variant.ofJson j = .ok t ∧ w = some t := by
    rw [Edit.assign_eq_ok]
    cases (Variant.ofJson j : Except Error σ) with
    | ok t =>
      constructor
      · intro h
        cases h
        exact ⟨t, rfl, rfl⟩
      · rintro ⟨_, ⟨⟩, rfl⟩
        rfl
    | error e =>
      constructor
      · nofun
      · rintro ⟨_, h, -⟩
        cases h
  cases j with
  | null =>
    constructor
    · intro h
      cases v with
      | none =>
        cases h
        exact .inl ⟨rfl, rfl, rfl⟩
      | some s => cases h
    · rintro (⟨-, rfl, rfl⟩ | ⟨_, h, -⟩)
      · rfl
      · cases h
  | _ => exact hother.trans (or_iff_right fun h => nomatch h.1).symm

/-- **A set variant comes back**, set to whatever or not, if the value of its
candidate comes back in a fresh node. -/
theorem load_toJson_some (few : (Choice.candidates σ).length ≤ 0x8000)
    (h : Node.load (Node.toJson (Choice.split t).2) Node.initial = .ok () (Choice.split t).2)
    (v : Option σ) : Variant.load (Variant.toJson (some t)) v = .ok () (some t) := by
  have hlt : Choice.index t < (Choice.candidates σ).length := (Choice.split t).1.isLt
  have hindex : (Json.ofInt (Choice.index t)).toNat? = some (Choice.split t).1.val :=
    Json.toNat?_ofInt (by omega)
  refine load_eq_ok.2 (.inr ⟨t, ofJson_eq_ok.2 ?_, rfl⟩)
  exact ⟨_, _, (Choice.split t).1, (Choice.split t).2, rfl, List.lookup_cons_self, hindex,
    .loaded rfl h, (Choice.join_split t).symm⟩

end Variant

/-- The value of a choice by itself comes back in place, where its candidate stays
the same. -/
theorem Choice.load_toJson {σ : Type} [Choice σ]
    (h : ∀ c ∈ candidates σ, Node.ReloadsLoaded c.Value) {j : Json} {s t : σ}
    (ht : Choice.load j s = .ok () t) : Choice.load (Choice.toJson t) s = .ok () t := by
  obtain ⟨i, y, rfl⟩ : ∃ i y, s = join ⟨i, y⟩ := ⟨_, _, (join_split s).symm⟩
  obtain ⟨x, hx, rfl⟩ := load_join_eq_ok.1 ht
  rw [Choice.toJson, split_join]
  exact load_join_eq_ok.2 ⟨x, h _ (List.get_mem _ i) hx, rfl⟩

theorem Node.reloads_variant {σ : Type} [Choice σ] (few : (Choice.candidates σ).length ≤ 0x8000)
    (h : ∀ c ∈ Choice.candidates σ, Node.Reloads c.Value) : Node.Reloads (Option σ) where
  encoded v p hv s := by
    cases v with
    | none => cases hv
    | some t =>
      obtain ⟨c, q, -, ht, -⟩ := append_eq_ok.1 (show Variant.encode (some t) = _ from hv)
      exact Variant.load_toJson_some few ((h _ (List.get_mem _ _)).encoded ht Node.initial) s
  loaded j s v hv := by
    rcases Variant.load_eq_ok.1 hv with ⟨-, rfl, rfl⟩ | ⟨t, ht, rfl⟩
    · rfl
    · -- the value is written in full, so the data is there even where there was none to load
      obtain ⟨_, _, i, x, -, -, -, hx, rfl⟩ := Variant.ofJson_eq_ok.1 ht
      refine Variant.load_toJson_some few ?_ s
      rw [Choice.split_join]
      cases hx with
      | absent _ => exact (h _ (List.get_mem _ i)).initial
      | loaded _ hload => exact (h _ (List.get_mem _ i)).loaded hload
  initial := rfl

/-! ## Regular types -/

/-- **The values of every regular type come back from their text forms.** -/
theorem Node.Regular.reloads {α : Type} [Node α] (h : Node.Regular α) : Node.Reloads α := by
  induction h with
  | single => exact Single.reloads
  | int32 => exact Int32.reloads
  | bool => exact Bool.reloads
  | vec3 => exact Vec3.reloads
  | quaternion => exact Quaternion.reloads
  | identifier => exact Identifier.reloads
  | floatBuffer => exact FloatBuffer.reloads
  | record law _ ih =>
    exact Record.reloads law.nodup_names law.settle_eq
      (fun {v p} hv => ⟨p, (law.encode_eq v).symm.trans hv⟩) law.initial_encodes ih
  | list _ ih => exact Node.reloads_list ih
  | variant few _ ih => exact Node.reloads_variant few ih

end MapDocument
