import MapDocument.Bytes.Reader
import MapDocument.Proofs.Bytes.LittleEndian
import MapDocument.Proofs.Text.Utf8.Decoding
import MapDocument.Bytes.Fields
/-!
# Bytes — a field is read where its bytes are

A field is read exactly where the bytes that it is written as come next, and
the reader then stands right behind them. A field that is refused may leave the
reader further on, but never behind where it was, nor past the last byte.
-/

namespace MapDocument

namespace Reader

variable {α β : Type} {r r' : Reader} {bytes : Bytes} {x : Edit Reader α}

/-! ## Taking bytes -/

/-- The reader has gone on over some bytes. -/
def Took (r : Reader) (bytes : Bytes) (r' : Reader) : Prop :=
  r.rest = bytes ++ r'.rest ∧ r'.position = r.position + bytes.length

theorem Took.nil (r : Reader) : r.Took [] r := ⟨rfl, rfl⟩

theorem took_nil_iff : r.Took [] r' ↔ r' = r := by
  constructor
  · rintro ⟨hrest, hposition⟩
    obtain ⟨position, rest⟩ := r
    obtain ⟨position', rest'⟩ := r'
    simp only [List.nil_append, List.length_nil, Nat.add_zero] at hrest hposition
    rw [hrest, hposition]
  · rintro rfl
    exact .nil r'

/-- It goes on over two sequences of bytes one after the other. -/
theorem took_append_iff {more : Bytes} :
    r.Took (bytes ++ more) r' ↔ ∃ m, r.Took bytes m ∧ m.Took more r' := by
  constructor
  · rintro ⟨hrest, hposition⟩
    refine ⟨⟨r.position + bytes.length, more ++ r'.rest⟩, ⟨?_, rfl⟩, rfl, ?_⟩
    · rw [hrest, List.append_assoc]
    · rw [hposition, List.length_append, Nat.add_assoc]
  · rintro ⟨m, ⟨hrest, hposition⟩, hrest', hposition'⟩
    refine ⟨?_, ?_⟩
    · rw [hrest, hrest', List.append_assoc]
    · rw [hposition', hposition, List.length_append, Nat.add_assoc]

/-- From the front of a sequence of bytes, the place is the number of bytes passed. -/
theorem took_ofBytes_iff {all : Bytes} :
    (ofBytes all).Took bytes r ↔ all = bytes ++ r.rest ∧ r.position = bytes.length := by
  unfold Took ofBytes
  rw [Nat.zero_add]

/-- So many bytes further on, a reader has gone on over them. -/
theorem took_skip (count : Nat) (h : count ≤ r.remaining) :
    r.Took (r.rest.take count) (r.skip count) := by
  have hlength : (r.rest.take count).length = count := List.length_take_of_le h
  exact ⟨(List.take_append_drop count r.rest).symm, by rw [hlength]; rfl⟩

/-- What taking bytes comes to. -/
theorem take_eq (count : Nat) (r : Reader) :
    take count r = if count ≤ r.remaining then .ok (r.rest.take count) (r.skip count)
      else .error (.of (Fault.tooFewBytes count r.position r.remaining)) r := by
  unfold take
  exact apply_ite (fun x : Edit Reader Bytes => x r) _ _ _

/-- The next bytes are taken if there are as many. -/
theorem take_eq_ok {count : Nat} :
    take count r = .ok bytes r' ↔ bytes.length = count ∧ r.Took bytes r' := by
  rw [take_eq]
  constructor
  · intro h
    split at h
    · rename_i hfits
      cases h
      exact ⟨List.length_take_of_le hfits, took_skip count hfits⟩
    · cases h
  · rintro ⟨rfl, hrest, hposition⟩
    have hfits : bytes.length ≤ r.remaining := by
      rw [remaining, hrest, List.length_append]
      omega
    have hskip : r.skip bytes.length = r' := by
      rw [skip, hrest, List.drop_left, ← hposition]
    rw [if_pos hfits, hskip, hrest, List.take_left]

/-- A word is read where its bytes come next. -/
theorem map_take_eq_ok {count : Nat} {ofBytes : Bytes → α} {toBytes : α → Bytes} {a : α}
    (hlength : ∀ a, (toBytes a).length = count) (hback : ∀ a, ofBytes (toBytes a) = a)
    (hbytes : ∀ bytes : Bytes, bytes.length = count → toBytes (ofBytes bytes) = bytes) :
    (ofBytes <$> take count) r = .ok a r' ↔ r.Took (toBytes a) r' := by
  rw [map_eq_ok]
  constructor
  · rintro ⟨bytes, htake, rfl⟩
    obtain ⟨hcount, htook⟩ := take_eq_ok.1 htake
    rwa [hbytes bytes hcount]
  · intro htook
    exact ⟨toBytes a, take_eq_ok.2 ⟨hlength a, htook⟩, hback a⟩

theorem int16_eq_ok {n : Int16} : int16 r = .ok n r' ↔ r.Took (Bytes.ofInt16 n) r' :=
  map_take_eq_ok Bytes.length_ofInt16 Bytes.toInt16_ofInt16 fun _ => Bytes.ofInt16_toInt16

theorem int32_eq_ok {n : Int32} : int32 r = .ok n r' ↔ r.Took (Bytes.ofInt32 n) r' :=
  map_take_eq_ok Bytes.length_ofInt32 Bytes.toInt32_ofInt32 fun _ => Bytes.ofInt32_toInt32

theorem single_eq_ok {x : Single} : single r = .ok x r' ↔ r.Took (Bytes.ofSingle x) r' :=
  map_take_eq_ok Bytes.length_ofSingle Bytes.toSingle_ofSingle fun _ => Bytes.ofSingle_toSingle

/-- A truth value is read where one of its two bytes comes next. -/
theorem bool_eq_ok {b : Bool} : bool r = .ok b r' ↔ r.Took (Bytes.ofBool b) r' := by
  rw [bool, bind_step_eq_ok]
  constructor
  · rintro ⟨_, _, hget, h⟩
    cases hget
    obtain ⟨bytes, m, htake, h⟩ := bind_step_eq_ok.1 h
    have htook := (take_eq_ok.1 htake).2
    split at h
    · cases h
      exact htook
    · cases h
      exact htook
    · cases h
  · intro htook
    refine ⟨r, r, rfl, bind_step_eq_ok.2 ⟨Bytes.ofBool b, r', take_eq_ok.2 ⟨rfl, htook⟩, ?_⟩⟩
    cases b <;> rfl

/-! ## Fields of their own length -/

/-- A length is read where a four-byte integer comes next that is not negative. -/
theorem length_eq_ok {n : Nat} :
    length r = .ok n r' ↔ ∃ p, Bytes.ofLength? n = .ok p ∧ r.Took p r' := by
  unfold length Bytes.ofLength?
  rw [bind_step_eq_ok]
  constructor
  · rintro ⟨k, m, hk, h⟩
    have htook := int32_eq_ok.1 hk
    split at h
    · rename_i hsign
      cases h
      have hbound := k.toInt_lt
      refine ⟨_, if_pos (by omega), ?_⟩
      have hback : Int32.ofNat k.toInt.toNat = k := by
        rw [← Int32.toInt_inj, Int32.toInt_ofNat_of_lt (by omega)]
        omega
      rwa [hback]
    · cases h
  · rintro ⟨p, hp, htook⟩
    split at hp
    · rename_i hfits
      cases hp
      have hint : (Int32.ofNat n).toInt = n := Int32.toInt_ofNat_of_lt hfits
      refine ⟨_, r', int32_eq_ok.2 htook, ?_⟩
      rw [hint, if_pos (Int.natCast_nonneg n)]
      rfl
    · cases hp

/-- The bytes before the first zero byte. -/
theorem takeWhile_append_zero {rest : Bytes} (h : bytes.contains 0 = false) :
    (bytes ++ 0 :: rest).takeWhile (· ≠ 0) = bytes := by
  have hall : ∀ b ∈ bytes, decide (b ≠ 0) = true := by
    intro b hb
    refine decide_eq_true fun hzero => ?_
    rw [hzero] at hb
    rw [List.contains_iff_mem.2 hb] at h
    cases h
  rw [List.takeWhile_append_of_pos hall, List.takeWhile_cons_of_neg (by decide), List.append_nil]

/-- There is a zero byte behind them, unless they are all. -/
theorem eq_takeWhile_append {rest : Bytes}
    (h : (rest.takeWhile (· ≠ 0)).length ≠ rest.length) :
    ∃ more, rest = rest.takeWhile (· ≠ 0) ++ 0 :: more := by
  have hsplit := List.takeWhile_append_dropWhile (p := (· ≠ 0)) (l := rest)
  have hhead := List.head?_dropWhile_not (· ≠ 0) rest
  cases hdrop : rest.dropWhile (· ≠ 0) with
  | nil =>
    rw [hdrop, List.append_nil] at hsplit
    exact absurd (congrArg List.length hsplit) h
  | cons b more =>
    rw [hdrop] at hhead hsplit
    obtain rfl : b = 0 := by simpa using hhead
    exact ⟨more, hsplit.symm⟩

/-- What reading a text comes to. -/
theorem string_eq (r : Reader) :
    string r = if (r.rest.takeWhile (· ≠ 0)).length = r.rest.length then
        .error (.of (Fault.unterminatedString r.position)) r
      else match Utf8.decode (r.rest.takeWhile (· ≠ 0)) with
        | .error e => .error (.of (Fault.notUtf8 r.position e)) r
        | .ok s => .ok s (r.skip ((r.rest.takeWhile (· ≠ 0)).length + 1)) := by
  have hsteps : string r = (do
      if (r.rest.takeWhile (· ≠ 0)).length = r.rest.length then
        Edit.refuse (Fault.unterminatedString r.position)
      match Utf8.decode (r.rest.takeWhile (· ≠ 0)) with
      | .error e => Edit.refuse (Fault.notUtf8 r.position e)
      | .ok s => do
        set (r.skip ((r.rest.takeWhile (· ≠ 0)).length + 1))
        return s : Edit Reader String) r := rfl
  rw [hsteps]
  by_cases hzero : (r.rest.takeWhile (· ≠ 0)).length = r.rest.length
  · simp only [if_pos hzero]
    rfl
  · simp only [if_neg hzero]
    cases Utf8.decode (r.rest.takeWhile (· ≠ 0)) <;> rfl

/-- A text is read where its bytes come next, and a zero byte behind them. -/
theorem string_eq_ok {s : String} :
    string r = .ok s r' ↔ ∃ p, Bytes.ofString? s = .ok p ∧ r.Took p r' := by
  have hskip (bytes more : Bytes) (hrest : r.rest = bytes ++ 0 :: more) :
      r.skip (bytes.length + 1) = ⟨r.position + (bytes.length + 1), more⟩ := by
    rw [skip, hrest, ← List.drop_drop, List.drop_left]
    rfl
  rw [string_eq]
  constructor
  · intro h
    split at h
    · cases h
    · rename_i hzero
      obtain ⟨more, hmore⟩ := eq_takeWhile_append hzero
      split at h
      · cases h
      · rename_i text hdecode
        have hbytes := Utf8.decode_eq_ok.1 hdecode
        have hall : (r.rest.takeWhile (· ≠ 0)).all (· ≠ 0) = true := List.all_takeWhile
        have hproper : ¬ (Utf8.encode text).contains 0 := by
          rw [← hbytes, List.contains_iff_mem]
          intro hmem
          have hne := List.all_eq_true.1 hall 0 hmem
          simp at hne
        rw [hbytes] at hmore h
        rw [hskip _ _ hmore] at h
        cases h
        refine ⟨_, if_neg hproper, ?_, by simp⟩
        rw [List.append_assoc]
        exact hmore
  · rintro ⟨p, hp, hrest, hposition⟩
    unfold Bytes.ofString? at hp
    simp only at hp
    split at hp
    · cases hp
    · rename_i hproper
      cases hp
      rw [List.append_assoc] at hrest
      have hmore : r.rest = Utf8.encode s ++ 0 :: r'.rest := hrest
      have hbytes : r.rest.takeWhile (· ≠ 0) = Utf8.encode s := by
        rw [hmore, takeWhile_append_zero (by simpa using hproper)]
      have hlonger : (Utf8.encode s).length ≠ r.rest.length := by
        rw [hmore, List.length_append, List.length_cons]
        omega
      rw [hbytes, if_neg hlonger, Utf8.decode_eq_ok.2 rfl]
      simp only
      have hbehind : r.position + ((Utf8.encode s).length + 1) = r'.position := by
        rw [hposition, List.length_append]
        rfl
      rw [hskip _ _ hmore, hbehind]

/-- So many numbers are read where all their bytes come next. -/
theorem singlesOf_eq_ok {count : Nat} {xs : List Single} :
    singlesOf count r = .ok xs r' ↔ xs.length = count ∧ r.Took (xs.flatMap Bytes.ofSingle) r' := by
  induction count generalizing r xs with
  | zero =>
    rw [List.length_eq_zero_iff]
    constructor
    · intro h
      cases h
      exact ⟨rfl, .nil _⟩
    · rintro ⟨rfl, htook⟩
      rw [List.flatMap_nil, took_nil_iff] at htook
      rw [htook]
      rfl
  | succ count ih =>
    unfold singlesOf
    rw [bind_step_eq_ok]
    constructor
    · rintro ⟨x, m, hx, h⟩
      obtain ⟨later, m', hlater, h⟩ := bind_step_eq_ok.1 h
      cases h
      obtain ⟨hlength, htook⟩ := ih.1 hlater
      refine ⟨congrArg Nat.succ hlength, ?_⟩
      rw [List.flatMap_cons]
      exact took_append_iff.2 ⟨m, single_eq_ok.1 hx, htook⟩
    · rintro ⟨hlength, htook⟩
      obtain ⟨x, later, rfl⟩ := List.exists_cons_of_length_eq_add_one hlength
      rw [List.flatMap_cons, took_append_iff] at htook
      obtain ⟨m, hx, hlater⟩ := htook
      refine ⟨x, m, single_eq_ok.2 hx, bind_step_eq_ok.2 ⟨later, r', ?_, rfl⟩⟩
      exact ih.2 ⟨Nat.succ.inj hlength, hlater⟩

/-- Numbers are read where their count and all their bytes come next. -/
theorem singles_eq_ok {xs : List Single} :
    singles r = .ok xs r' ↔ ∃ p, Bytes.ofSingles? xs = .ok p ∧ r.Took p r' := by
  have hsteps (count : Nat) (m : Reader) : (do
        let r ← get
        if r.remaining < count * 4 then Edit.refuse (Fault.tooFewFloats count)
        singlesOf count : Edit Reader (List Single)) m =
      if m.remaining < count * 4 then .error (.of (Fault.tooFewFloats count)) m
      else singlesOf count m := by
    have hget : (do
        let r ← get
        if r.remaining < count * 4 then Edit.refuse (Fault.tooFewFloats count)
        singlesOf count : Edit Reader (List Single)) m = (do
          if m.remaining < count * 4 then Edit.refuse (Fault.tooFewFloats count)
          singlesOf count : Edit Reader (List Single)) m := rfl
    rw [hget]
    split <;> rfl
  unfold singles Bytes.ofSingles?
  rw [bind_step_eq_ok]
  constructor
  · rintro ⟨count, m, hcount, h⟩
    rw [hsteps] at h
    split at h
    · cases h
    · obtain ⟨hlength, htook⟩ := singlesOf_eq_ok.1 h
      obtain ⟨p, hp, hbefore⟩ := length_eq_ok.1 hcount
      rw [hlength]
      exact ⟨_, bind_eq_ok.2 ⟨p, hp, rfl⟩, took_append_iff.2 ⟨m, hbefore, htook⟩⟩
  · rintro ⟨_, hwritten, htook⟩
    obtain ⟨p, hp, hbytes⟩ := bind_eq_ok.1 hwritten
    cases hbytes
    obtain ⟨m, hbefore, htook⟩ := took_append_iff.1 htook
    have henough : ¬ m.remaining < xs.length * 4 := by
      rw [remaining, htook.1, List.length_append, Bytes.length_flatMap_ofSingle]
      omega
    refine ⟨xs.length, m, length_eq_ok.2 ⟨p, hp, hbefore⟩, ?_⟩
    rw [hsteps, if_neg henough]
    exact singlesOf_eq_ok.2 ⟨rfl, htook⟩

/-! ## Where a reader stops -/

/-- A read goes on over some bytes, be it that it succeeds or fails. -/
def Onward (x : Edit Reader α) : Prop := ∀ r : Reader, ∃ bytes, r.Took bytes (Edit.held (x r))

namespace Onward

theorem pure (a : α) : Onward (Pure.pure a : Edit Reader α) := fun r => ⟨[], .nil r⟩

theorem refuse (fault : Fault) : Onward (Edit.refuse fault : Edit Reader α) := fun r => ⟨[], .nil r⟩

theorem get : Onward (MonadState.get : Edit Reader Reader) := fun r => ⟨[], .nil r⟩

/-- A sequence of such reads is one. -/
theorem bind {f : α → Edit Reader β} (hx : Onward x) (hf : ∀ a, Onward (f a)) :
    Onward (x >>= f) := by
  intro r
  obtain ⟨bytes, htook⟩ := hx r
  cases h : x r with
  | error e m =>
    rw [h] at htook
    have hstop : (x >>= f) r = .error e m := by simp only [Bind.bind, EStateM.bind, h]
    exact ⟨bytes, by rw [hstop]; exact htook⟩
  | ok a m =>
    rw [h] at htook
    obtain ⟨more, htook'⟩ := hf a m
    exact ⟨bytes ++ more, took_append_iff.2 ⟨m, htook, by rw [bind_of_eq_ok h]; exact htook'⟩⟩

theorem map (hx : Onward x) (f : α → β) : Onward (f <$> x) := by
  rw [map_eq_pure_bind]
  exact .bind hx fun a => .pure (f a)

theorem take (count : Nat) : Onward (Reader.take count) := by
  intro r
  rw [take_eq]
  split
  · rename_i hfits
    exact ⟨_, took_skip count hfits⟩
  · exact ⟨[], .nil r⟩

theorem length : Onward Reader.length := by
  refine .bind ((take 4).map _) fun n => ?_
  dsimp only
  split
  · exact .pure _
  · exact .refuse _

theorem bool : Onward Reader.bool := by
  refine .bind .get fun r => .bind (.take 1) fun bytes => ?_
  split
  · exact .pure _
  · exact .pure _
  · exact .refuse _

theorem string : Onward Reader.string := by
  intro r
  rw [string_eq]
  split
  · exact ⟨[], .nil r⟩
  · rename_i hzero
    split
    · exact ⟨[], .nil r⟩
    · have hfits : (r.rest.takeWhile (· ≠ 0)).length + 1 ≤ r.remaining := by
        have hle := (List.takeWhile_prefix (p := (· ≠ 0)) (l := r.rest)).length_le
        unfold remaining
        omega
      exact ⟨_, took_skip _ hfits⟩

theorem singlesOf (count : Nat) : Onward (Reader.singlesOf count) := by
  induction count with
  | zero => exact .pure []
  | succ count ih => exact .bind ((take 4).map _) fun x => .bind ih fun xs => .pure _

theorem singles : Onward Reader.singles := by
  refine .bind .length fun count => .bind .get fun r => ?_
  split
  · exact .bind (.refuse _) fun _ => .singlesOf count
  · exact .singlesOf count

/-- **Whatever is read, the reader goes on.** -/
theorem read (step : ReadStep) : Onward (Reader.read step) := by
  cases step with
  | int16 => exact ((take 2).map _).map _
  | int32 => exact ((take 4).map _).map _
  | single => exact ((take 4).map _).map _
  | bool => exact bool.map _
  | length => exact length.map _
  | string => exact string.map _
  | singles => exact singles.map _

end Onward

end Reader

end MapDocument
