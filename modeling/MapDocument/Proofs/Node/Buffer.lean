import MapDocument.Proofs.Bytes.Base64.Canonical
import MapDocument.Proofs.Node.Leaf
/-!
# Leaves — the one text of a buffer

A buffer has a text, white space may be put into that text anywhere, and no other text is
loaded as this buffer: the buffers and the texts that are loaded, with the white space
taken out, belong to each other one to one (`FloatBuffer.text_canonical`). It takes that
base64 reads nothing but what it writes, and that whole numbers are made of four bytes each.
-/

namespace MapDocument

/-! ## White space -/

/-- A text with the white space taken out. -/
def withoutBlanks (s : String) : String := String.ofList (s.toList.filter (!isBlank ·))

/-- The first is the second with white space put in anywhere. -/
inductive Spaced : List Char → List Char → Prop
  | nil : Spaced [] []
  | keep (c : Char) {spaced cs : List Char} : Spaced spaced cs → Spaced (c :: spaced) (c :: cs)
  | blank {c : Char} {spaced cs : List Char} (h : isBlank c = true) :
    Spaced spaced cs → Spaced (c :: spaced) cs

variable {spaced cs : List Char}

/-- White space that was put in makes no difference once all of it is taken out. -/
theorem Spaced.filter_eq (h : Spaced spaced cs) :
    spaced.filter (!isBlank ·) = cs.filter (!isBlank ·) := by
  induction h with
  | nil => rfl
  | keep c _ ih => rw [List.filter_cons, List.filter_cons, ih]
  | blank h _ ih => rw [List.filter_cons_of_neg (by simp [h]), ih]

/-- White space that is taken out can be put in again. -/
theorem spaced_filter (cs : List Char) : Spaced cs (cs.filter (!isBlank ·)) := by
  induction cs with
  | nil => exact .nil
  | cons c cs ih =>
    cases h : isBlank c with
    | true =>
      rw [List.filter_cons_of_neg (by simp [h])]
      exact .blank h ih
    | false =>
      rw [List.filter_cons_of_pos (by simp [h])]
      exact .keep c ih

/-- A text without white space has it put in where that gives it when taken out. -/
theorem spaced_iff (h : cs.filter (!isBlank ·) = cs) :
    Spaced spaced cs ↔ spaced.filter (!isBlank ·) = cs := by
  constructor
  · intro hspaced
    rw [hspaced.filter_eq, h]
  · rintro rfl
    exact spaced_filter spaced

/-! ## Buffers -/

namespace FloatBuffer

variable {s : String} {bytes : Bytes} {buffer v w : FloatBuffer} {j : Json}

/-- Whole numbers have the bytes that they are read from. -/
theorem toBytes_singlesOfBytes (h : bytes.length % 4 = 0) :
    toBytes ⟨singlesOfBytes bytes⟩ = bytes := by
  induction bytes using singlesOfBytes.induct with
  | case1 a b c d rest ih =>
    have hrest : rest.length % 4 = 0 := by
      simp only [List.length_cons] at h
      omega
    have hhead : toBytes ⟨singlesOfBytes (a :: b :: c :: d :: rest)⟩ =
        Bytes.ofSingle (Bytes.toSingle [a, b, c, d]) ++ toBytes ⟨singlesOfBytes rest⟩ := rfl
    rw [hhead, ih hrest, Bytes.ofSingle_toSingle rfl]
    rfl
  | case2 bytes hshort =>
    match bytes, hshort with
    | [], _ => rfl
    | a :: b :: c :: d :: rest, hshort => exact (hshort a b c d rest rfl).elim

/-- **Bytes are those of one buffer**, if they are whole numbers. -/
theorem ofBytes_eq_ok : ofBytes bytes = .ok buffer ↔ bytes = buffer.toBytes := by
  unfold ofBytes
  split
  · rename_i h
    rw [Except.ok.injEq]
    constructor
    · rintro rfl
      exact (toBytes_singlesOfBytes h).symm
    · rintro rfl
      rw [singlesOfBytes_toBytes]
  · rename_i h
    refine ⟨nofun, ?_⟩
    rintro rfl
    rw [toBytes, Bytes.length_flatMap_ofSingle, Nat.mul_mod_right] at h
    exact absurd rfl h

/-- Bytes are those of a buffer where they are whole numbers. -/
theorem exists_toBytes_eq : (∃ buffer, bytes = toBytes buffer) ↔ bytes.length % 4 = 0 := by
  constructor
  · rintro ⟨buffer, rfl⟩
    rw [toBytes, Bytes.length_flatMap_ofSingle, Nat.mul_mod_right]
  · intro h
    exact ⟨_, (toBytes_singlesOfBytes h).symm⟩

/-- The text of a buffer has no white space. -/
theorem filter_toList_text (buffer : FloatBuffer) :
    buffer.text.toList.filter (!isBlank ·) = buffer.text.toList := by
  rw [text, Base64.encode, String.toList_ofList, Base64.filter_symbols]

/-- **What is read is the buffer whose text it is**, with the white space taken out. -/
theorem ofText_eq_ok : ofText s = .ok buffer ↔ withoutBlanks s = buffer.text := by
  have hbytes : ofText s = .ok buffer ↔ ∃ bytes, withoutBlanks s = Base64.encode bytes ∧
      ofBytes bytes = .ok buffer := by
    simp only [← Base64.decode_encode_eq_ok]
    cases hdecode : Base64.decode (Utf8.encode (withoutBlanks s)) with
    | ok bytes =>
      unfold withoutBlanks at hdecode
      simp [ofText, hdecode]
    | error fault =>
      unfold withoutBlanks at hdecode
      simp [ofText, hdecode]
  simp only [hbytes, ofBytes_eq_ok]
  exact exists_eq_right

/-- A buffer is loaded from a string alone. -/
theorem load_eq_ok :
    Node.load j v = .ok () w ↔ ∃ s, j = .string s ∧ withoutBlanks s = w.text := by
  have hload : Node.load j v = Edit.assign (j.asString >>= ofText) v := rfl
  rw [hload, Edit.assign_eq_ok, bind_eq_ok]
  refine exists_congr fun s => and_congr ?_ ofText_eq_ok
  cases j <;> simp [Json.asString]

/-- A string is refused where it is the text of no whole numbers. -/
theorem exists_load_eq_error :
    (∃ e w, Node.load (.string s) v = .error e w) ↔
      ¬ ∃ bytes : Bytes, bytes.length % 4 = 0 ∧ withoutBlanks s = Base64.encode bytes := by
  have hloaded : (∃ w, Node.load (.string s) v = .ok () w) ↔
      ∃ bytes : Bytes, bytes.length % 4 = 0 ∧ withoutBlanks s = Base64.encode bytes := by
    simp only [load_eq_ok, ← exists_toBytes_eq]
    constructor
    · rintro ⟨w, _, ⟨⟩, hw⟩
      exact ⟨w.toBytes, ⟨w, rfl⟩, hw⟩
    · rintro ⟨_, ⟨w, rfl⟩, hw⟩
      exact ⟨w, s, rfl, hw⟩
  rw [← hloaded]
  cases (Node.load (.string s) v : EStateM.Result Error FloatBuffer Unit) with
  | ok u w => simp
  | error e w => simp

/-- **The text of a buffer is canonical.** Every buffer, whatever its numbers are, is loaded
from its text with white space put in anywhere, bit for bit. What is loaded is a string, and
with the white space taken out it is the text of the buffer that was loaded; so no two
strings that differ without their white space are loaded as the same buffer. A string is
refused where it is not base64 of whole numbers. -/
theorem text_canonical :
    (∀ (buffer v : FloatBuffer) (s : String), Spaced s.toList buffer.text.toList →
      Node.load (.string s) v = .ok () buffer) ∧
    (∀ (j : Json) (v w : FloatBuffer), Node.load j v = .ok () w ↔
      ∃ s, j = .string s ∧ Node.toJson w = .string (withoutBlanks s)) ∧
    (∀ (s t : String) (v v' w : FloatBuffer), Node.load (.string s) v = .ok () w →
      Node.load (.string t) v' = .ok () w → withoutBlanks s = withoutBlanks t) ∧
    ∀ (s : String) (v : FloatBuffer), (∃ e w, Node.load (.string s) v = .error e w) ↔
      ¬ ∃ bytes : Bytes, bytes.length % 4 = 0 ∧ withoutBlanks s = Base64.encode bytes := by
  refine ⟨?_, ?_, ?_, ?_⟩
  · intro buffer v s hs
    have hstripped := (spaced_iff (filter_toList_text buffer)).1 hs
    refine load_eq_ok.2 ⟨s, rfl, ?_⟩
    rw [withoutBlanks, hstripped, String.ofList_toList]
  · intro j v w
    have hjson (s : String) : Node.toJson w = .string (withoutBlanks s) ↔
        withoutBlanks s = w.text := by
      rw [eq_comm]
      exact Json.string.injEq _ _ ▸ Iff.rfl
    simp only [hjson]
    exact load_eq_ok
  · intro s t v v' w hs ht
    obtain ⟨_, ⟨⟩, hs⟩ := load_eq_ok.1 hs
    obtain ⟨_, ⟨⟩, ht⟩ := load_eq_ok.1 ht
    rw [hs, ht]
  · intro s v
    exact exists_load_eq_error

/-- The numbers 1, -2.5 and one that is none. -/
def oneAndNone : FloatBuffer := ⟨[⟨0x3f800000⟩, ⟨0xc0200000⟩, ⟨0x7fc00001⟩]⟩

/-- Their text in two lines, with a wide space in the first. -/
def wrapped : String := "AACA\u2003PwAA\nIMABAMB/\n"

/-- White space of any script may stand in a text, and a number cut short is refused. -/
theorem text_canonical_wrapped :
    Spaced wrapped.toList oneAndNone.text.toList ∧
    Node.load (.string wrapped) empty = .ok () oneAndNone ∧
    withoutBlanks wrapped = withoutBlanks "AACAPwAAIMABAMB/" ∧
    ∃ e w, Node.load (.string "AAA=") oneAndNone = .error e w := by
  have hspaced : Spaced wrapped.toList oneAndNone.text.toList :=
    (spaced_iff (filter_toList_text oneAndNone)).2 (by decide)
  have hunspaced : Spaced "AACAPwAAIMABAMB/".toList oneAndNone.text.toList :=
    (spaced_iff (filter_toList_text oneAndNone)).2 (by decide)
  obtain ⟨hload, -, hsame, hrefused⟩ := text_canonical
  have hwrapped := hload oneAndNone empty wrapped hspaced
  have hplain := hload oneAndNone empty _ hunspaced
  have hstripped := hsame _ _ _ _ _ hwrapped hplain
  refine ⟨hspaced, hwrapped, hstripped, (hrefused "AAA=" oneAndNone).2 ?_⟩
  rintro ⟨bytes, hwhole, htext⟩
  have hbytes : Base64.decode (Utf8.encode (withoutBlanks "AAA=")) = .ok [0, 0] := rfl
  rw [Base64.decode_encode_eq_ok.2 htext] at hbytes
  cases hbytes
  cases hwhole

end FloatBuffer

end MapDocument
