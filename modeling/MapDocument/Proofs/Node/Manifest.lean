import MapDocument.Proofs.Faults
import MapDocument.Proofs.Node.Loaded
import MapDocument.Proofs.Text.Utf8
/-!
# Nodes — what a binary form may fail for

The binary form of a loaded node is refused for what does not fit: a name
with a zero character, and a list or buffer that has too many items for its
count. The names and counts of a node are its manifest, and the manifest of
a node is put together from those of its parts.
-/

namespace MapDocument

/-- The names and the counts that a node has to write. -/
structure Manifest where
  names : List Identifier
  counts : List Nat

namespace Manifest

/-- The manifest of a node that holds numbers only. -/
def empty : Manifest := ⟨[], []⟩

/-- The manifest of a name. -/
def name (name : Identifier) : Manifest := ⟨[name], []⟩

/-- The manifest of a count. -/
def count (n : Nat) : Manifest := ⟨[], [n]⟩

instance : Append Manifest := ⟨fun m n => ⟨m.names ++ n.names, m.counts ++ n.counts⟩⟩

@[simp] theorem append_empty (m : Manifest) : m ++ empty = m := by
  have happend : m ++ empty = ⟨m.names ++ [], m.counts ++ []⟩ := rfl
  rw [happend, List.append_nil, List.append_nil]

/-- The manifest of a list, given those of its items. -/
def list {α : Type} (item : α → Manifest) (xs : List α) : Manifest :=
  ⟨xs.flatMap fun x => (item x).names, xs.length :: xs.flatMap fun x => (item x).counts⟩

/-- The longest list and the longest buffer that can be counted. -/
def greatestCount : Nat := 0x7fffffff

/-- A name with a zero character and a count that is too great are to blame. -/
def Blames (m : Manifest) (fault : Fault) : Prop :=
  (∃ name ∈ m.names, '\x00' ∈ name.text.toList ∧ fault = .zeroInString name.text) ∨
    ∃ n ∈ m.counts, greatestCount < n ∧ fault = .tooLong n

variable {fault : Fault}

@[simp] theorem blames_empty : empty.Blames fault ↔ False := by
  simp [Blames, empty]

@[simp] theorem blames_name {i : Identifier} :
    (name i).Blames fault ↔ '\x00' ∈ i.text.toList ∧ fault = .zeroInString i.text := by
  simp [Blames, name]

@[simp] theorem blames_count {n : Nat} :
    (count n).Blames fault ↔ greatestCount < n ∧ fault = .tooLong n := by
  simp [Blames, count]

@[simp] theorem blames_append {m n : Manifest} :
    (m ++ n).Blames fault ↔ m.Blames fault ∨ n.Blames fault := by
  have hnames : (m ++ n).names = m.names ++ n.names := rfl
  have hcounts : (m ++ n).counts = m.counts ++ n.counts := rfl
  simp only [Blames, hnames, hcounts, List.mem_append, or_and_right, exists_or]
  exact or_or_or_comm

@[simp] theorem blames_list {α : Type} {item : α → Manifest} {xs : List α} :
    (list item xs).Blames fault ↔
      (greatestCount < xs.length ∧ fault = .tooLong xs.length) ∨
        ∃ x ∈ xs, (item x).Blames fault := by
  simp only [Blames, list, List.mem_cons, List.mem_flatMap]
  constructor
  · rintro (⟨i, ⟨x, hx, hi⟩, hfault⟩ | ⟨n, rfl | ⟨x, hx, hn⟩, hfault⟩)
    · exact .inr ⟨x, hx, .inl ⟨i, hi, hfault⟩⟩
    · exact .inl hfault
    · exact .inr ⟨x, hx, .inr ⟨n, hn, hfault⟩⟩
  · rintro (hfault | ⟨x, hx, ⟨i, hi, hfault⟩ | ⟨n, hn, hfault⟩⟩)
    · exact .inr ⟨_, .inl rfl, hfault⟩
    · exact .inl ⟨i, ⟨x, hx, hi⟩, hfault⟩
    · exact .inr ⟨n, .inr ⟨x, hx, hn⟩, hfault⟩

end Manifest

/-! ## Bytes -/

namespace Bytes

/-- A count is refused when it is too great. -/
theorem failsFor_ofLength? (n : Nat) : FailsFor (ofLength? n) (Manifest.count n).Blames := by
  refine FailsFor.check.congr fun fault => ?_
  rw [Manifest.blames_count, Nat.not_lt]
  exact Iff.rfl

/-- Text is refused when it has a zero character. -/
theorem failsFor_ofString? (s : String) :
    FailsFor (ofString? s) fun fault => '\x00' ∈ s.toList ∧ fault = .zeroInString s := by
  constructor
  · intro e he
    simp only [ofString?] at he
    split at he
    · rename_i hzero
      cases he
      rw [Utf8.contains_zero_encode, List.contains_iff_mem] at hzero
      exact ⟨hzero, rfl⟩
    · cases he
  · rintro fault ⟨hzero, -⟩
    have hbytes : (Utf8.encode s).contains 0 = true := by
      rw [Utf8.contains_zero_encode, List.contains_iff_mem]
      exact hzero
    exact ⟨_, if_pos hbytes⟩

/-- Numbers after their count are refused when the count is. -/
theorem failsFor_ofSingles? (xs : List Single) :
    FailsFor (ofSingles? xs) (Manifest.count xs.length).Blames :=
  (failsFor_ofLength? xs.length).map _

/-- Single numbers are refused when one of them is not finite. -/
theorem failsFor_ofFinite (xs : List Single) :
    FailsFor (ofFinite xs) fun fault =>
      (∃ x ∈ xs, x.isFinite = false) ∧ fault = .notFinite xs := by
  refine FailsFor.check.congr fun fault => ?_
  simp

end Bytes

/-! ## Parts of a node -/

section Parts

variable {α : Type} [Node α]

/-- Items fail for what one of them fails for. -/
theorem Node.failsFor_encodeItems {B : α → Fault → Prop} {index : Nat} {xs : List α}
    (h : ∀ x ∈ xs, FailsFor (Node.encode x) (B x)) :
    FailsFor (Node.encodeItems index xs) fun fault => ∃ x ∈ xs, B x fault := by
  induction xs generalizing index with
  | nil => exact (FailsFor.never ⟨_, rfl⟩).congr (by simp)
  | cons x xs ih =>
    have hhead := (h x List.mem_cons_self).locating (.index index)
    have htail : FailsFor (Node.encodeItems (index + 1) xs) fun fault => ∃ y ∈ xs, B y fault :=
      ih fun y hy => h y (List.mem_cons_of_mem x hy)
    exact (hhead.append htail).congr (by simp)

/-- **A list fails for its count, and for what one of its items fails for.** -/
theorem Node.failsFor_list {B : α → Fault → Prop} {xs : List α}
    (h : ∀ x ∈ xs, FailsFor (Node.encode x) (B x)) :
    FailsFor (Node.encode xs) fun fault =>
      (Manifest.greatestCount < xs.length ∧ fault = .tooLong xs.length) ∨ ∃ x ∈ xs, B x fault :=
  ((Bytes.failsFor_ofLength? xs.length).append (Node.failsFor_encodeItems h)).congr (by simp)

theorem Field.failsFor_nil (xs : Values []) : FailsFor (encodeAll [] xs) Manifest.empty.Blames :=
  (FailsFor.never ⟨_, rfl⟩).congr fun _ => Manifest.blames_empty.symm

/-- **Fields fail for what one of them fails for.** -/
theorem Field.failsFor_cons {f : Field} {fs : List Field} {x : f.Value} {xs : Values fs}
    {B C : Fault → Prop} (hx : FailsFor (Node.encode x) B) (hxs : FailsFor (encodeAll fs xs) C) :
    FailsFor (encodeAll (f :: fs) (x, xs)) fun fault => B fault ∨ C fault :=
  (hx.locating (.field f.name)).append hxs

/-- **A variant that is set fails for what its value fails for**, as the number
of a candidate always fits. -/
theorem Variant.failsFor {σ : Type} [Choice σ] {s : σ} {B : Fault → Prop}
    (few : (Choice.candidates σ).length ≤ 0x8000)
    (h : FailsFor (Node.encode (Choice.split s).2) B) : FailsFor (Node.encode (some s)) B := by
  have hindex : Choice.index s < (Choice.candidates σ).length := (Choice.split s).1.isLt
  have hnumber : ∃ p, Bytes.ofInt16? (Choice.index s) = .ok p := ⟨_, if_pos (by omega)⟩
  exact ((FailsFor.never hnumber).append h).congr (by simp)

end Parts

/-! ## Plain nodes -/

/-- The types of nodes that fail for nothing but their manifest once they were loaded. -/
class Node.Plain (α : Type) [Node α] (manifest : outParam (α → Manifest)) : Prop where
  failsFor : ∀ {v : α}, Node.Loaded v → FailsFor (Node.encode v) (manifest v).Blames

/-- A type of which every loaded value has a binary form. -/
theorem Node.Plain.ofEncodes {α : Type} [Node α]
    (h : ∀ {v : α}, Node.Loaded v → ∃ p, Node.encode v = .ok p) :
    Node.Plain α fun _ => .empty :=
  ⟨fun hv => (FailsFor.never (h hv)).congr fun _ => Manifest.blames_empty.symm⟩

instance : Node.Plain Single fun _ => .empty :=
  .ofEncodes fun h => by
    obtain ⟨j, s, hv⟩ := h
    have hfinite := Json.isFinite_of_asSingle (Edit.assign_eq_ok.1 hv)
    exact ⟨_, Bytes.ofFinite_eq_ok.2 ⟨by simpa using hfinite, rfl⟩⟩

instance : Node.Plain Int32 fun _ => .empty := .ofEncodes fun _ => ⟨_, rfl⟩

instance : Node.Plain Bool fun _ => .empty := .ofEncodes fun _ => ⟨_, rfl⟩

instance : Node.Plain Vec3 fun _ => .empty :=
  .ofEncodes fun h => by
    obtain ⟨j, s, hv⟩ := h
    have hfinite := Json.isFinite_of_asVec3 (Edit.assign_eq_ok.1 hv)
    exact ⟨_, Bytes.ofFinite_eq_ok.2 ⟨hfinite, rfl⟩⟩

instance : Node.Plain Quaternion fun _ => .empty :=
  .ofEncodes fun h => by
    obtain ⟨j, s, hv⟩ := h
    have hfinite := Json.isFinite_of_asQuaternion (Edit.assign_eq_ok.1 hv)
    exact ⟨_, Bytes.ofFinite_eq_ok.2 ⟨hfinite, rfl⟩⟩

instance : Node.Plain Identifier .name where
  failsFor {name} _ :=
    (Bytes.failsFor_ofString? name.text).congr fun _ => Manifest.blames_name.symm

instance : Node.Plain FloatBuffer fun buffer => .count buffer.values.length where
  failsFor {buffer} _ := Bytes.failsFor_ofSingles? buffer.values

instance {α : Type} [Node α] {manifest : α → Manifest} [item : Node.Plain α manifest] :
    Node.Plain (List α) (.list manifest) where
  failsFor h :=
    (Node.failsFor_list fun x hx => item.failsFor (h.item x hx)).congr
      fun _ => Manifest.blames_list.symm

/-- Fields of plain types. -/
class Field.Plain (fs : List Field) (manifest : outParam (Values fs → Manifest)) : Prop where
  failsFor : ∀ {xs : Values fs}, LoadedAll fs xs → FailsFor (encodeAll fs xs) (manifest xs).Blames

instance Field.Plain.nil : Field.Plain [] fun _ => .empty := ⟨fun {xs} _ => Field.failsFor_nil xs⟩

instance Field.Plain.cons {α : Type} [Node α] {name : String} {initial : α} {fs : List Field}
    {first : α → Manifest} {rest : Values fs → Manifest} [head : Node.Plain α first]
    [tail : Field.Plain fs rest] :
    Field.Plain (field name initial :: fs) fun xs => first xs.1 ++ rest xs.2 where
  failsFor {xs} h := by
    obtain ⟨x, xs⟩ := xs
    have hfails := Field.failsFor_cons (f := field name initial) (head.failsFor h.1)
      (tail.failsFor h.2)
    exact hfails.congr fun _ => Manifest.blames_append.symm

/-- A record of plain fields is plain; its manifest is put together from theirs. -/
theorem Node.Plain.ofFields {σ : Type} [Record σ] {manifest : σ → Manifest}
    {parts : Field.Values (Record.fields σ) → Manifest}
    (law : Record.Regular σ := by exact {})
    (regular : Field.Regular (Record.fields σ) := by dsimp only [Record.fields]; infer_instance)
    (plain : Field.Plain (Record.fields σ) parts := by dsimp only [Record.fields]; infer_instance)
    (hparts : ∀ v, manifest v = parts (Record.split v) := by
      intro _; first | rfl | (simp only [Manifest.append_empty]; rfl)) :
    Node.Plain σ manifest where
  failsFor {v} h := by
    have hall := Record.loadedAll_of_regular h regular law.settle_eq law.initial_encodes
    have hencode : Node.encode v = Record.encodeFields v := law.encode_eq v
    rw [hencode, hparts]
    exact plain.failsFor hall

end MapDocument
