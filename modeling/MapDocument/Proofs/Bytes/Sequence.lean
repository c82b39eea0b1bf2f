import Mathlib.Data.List.Forall2
import MapDocument.Bytes.Writer
import MapDocument.Proofs.Bytes.Reader
/-!
# Bytes — sequences of fields

What a writer was given is what a reader finds, for whole sequences of fields:
`Writer.run` passes over the fields that do not fit, `Reader.readAll` reads the
others back, and whatever was read is written as the bytes that were passed on
the way. `WriteStep.Shows` says of a field to write and a field that was read
that they hold the same.
-/

namespace MapDocument

/-! ## Fields of the two sorts -/

/-- How a field was read. -/
def ReadValue.step : ReadValue → ReadStep
  | .int16 _ => .int16
  | .int32 _ => .int32
  | .single _ => .single
  | .bool _ => .bool
  | .length _ => .length
  | .string _ => .string
  | .singles _ => .singles

/-- How what was read is written. -/
def ReadValue.written : ReadValue → WriteStep
  | .int16 n => .int16 n
  | .int32 n => .int32 n
  | .single x => .single x
  | .bool b => .bool b
  | .length n => .length n
  | .string s => .string s
  | .singles xs => .singles xs

namespace WriteStep

/-- How a field is read that was written. Bytes as they are do not say how many they are. -/
def matching? : WriteStep → Option ReadStep
  | int16 _ => some .int16
  | int32 _ => some .int32
  | single _ => some .single
  | bool _ => some .bool
  | checkedInt16 _ => some .int16
  | length _ => some .length
  | string _ => some .string
  | singles _ => some .singles
  | raw _ => none

/-- What was read is what was to be written, bit for bit. -/
def Shows : WriteStep → ReadValue → Prop
  | int16 n, .int16 k => k = n
  | int32 n, .int32 k => k = n
  | single x, .single y => y = x
  | bool b, .bool c => c = b
  | checkedInt16 n, .int16 k => k.toInt = n
  | length n, .length k => k = n
  | string s, .string t => t = s
  | singles xs, .singles ys => ys = xs
  | _, _ => False

variable {step : WriteStep} {value : ReadValue}

/-- Whatever was read can be written. -/
theorem shows_written (value : ReadValue) : value.written.Shows value := by
  cases value <;> rfl

/-- It was read the way that matches. -/
theorem Shows.matching_eq (h : step.Shows value) : step.matching? = some value.step := by
  unfold Shows at h
  split at h <;> first | rfl | cases h

/-- And it has the bytes that are written, a checked integer those of its narrow one. -/
theorem Shows.bytes_eq (h : step.Shows value) : step.bytes = value.written.bytes := by
  unfold Shows at h
  split at h
  case h_5 n k =>
    have hleast := k.le_toInt
    have hgreatest := k.toInt_lt
    have hnarrow : Int16.ofInt n = k := by rw [← h, Int16.ofInt_toInt]
    have hfits : -0x8000 ≤ n ∧ n < 0x8000 := by omega
    have hbytes : (checkedInt16 n).bytes = .ok (Bytes.ofInt16 (Int16.ofInt n)) := if_pos hfits
    rw [hbytes, hnarrow]
    rfl
  case h_9 => cases h
  all_goals
    subst h
    rfl

/-- **A field that fits holds a value that can be read**, unless it is bytes as they are. -/
theorem exists_shows {p : Bytes} (hmatch : step.matching?.isSome) (hfits : step.bytes = .ok p) :
    ∃ value, step.Shows value := by
  cases step with
  | int16 n => exact ⟨.int16 n, rfl⟩
  | int32 n => exact ⟨.int32 n, rfl⟩
  | single x => exact ⟨.single x, rfl⟩
  | bool b => exact ⟨.bool b, rfl⟩
  | length n => exact ⟨.length n, rfl⟩
  | string s => exact ⟨.string s, rfl⟩
  | singles xs => exact ⟨.singles xs, rfl⟩
  | checkedInt16 n =>
    have hbytes : (checkedInt16 n).bytes = Bytes.ofInt16? n := rfl
    rw [hbytes, Bytes.ofInt16?] at hfits
    split at hfits
    · rename_i hrange
      exact ⟨.int16 (Int16.ofInt n), Int16.toInt_ofInt_of_le hrange.1 hrange.2⟩
    · cases hfits
  | raw bytes => cases hmatch

end WriteStep

/-! ## Writing a sequence -/

namespace Writer

/-- What writing a field comes to. -/
theorem write_eq (step : WriteStep) (w : Writer) :
    write step w = match step.bytes with
      | .ok field => .ok () ⟨w.bytes ++ field⟩
      | .error e => .error e w := by
  unfold write Edit.check
  cases h : step.bytes <;> rfl

/-- **The buffer is what the fields that fit were written as**, one after the other. -/
theorem run_eq (steps : List WriteStep) (w : Writer) :
    run steps w = ⟨w.bytes ++ (steps.filterMap (·.bytes.toOption)).flatten⟩ := by
  induction steps generalizing w with
  | nil =>
    rw [List.filterMap_nil, List.flatten_nil, List.append_nil]
    rfl
  | cons step steps ih =>
    have hrun : run (step :: steps) w = run steps (Edit.held (write step w)) := rfl
    rw [hrun, ih, write_eq, List.filterMap_cons]
    cases step.bytes with
    | error e => rfl
    | ok field =>
      simp only [Except.toOption, Edit.held, List.flatten_cons, List.append_assoc]

end Writer

/-! ## Reading a sequence -/

namespace Reader

variable {r r' : Reader} {step : ReadStep} {value : ReadValue} {values : List ReadValue}

/-- Reads fields one after the other. -/
def readAll (steps : List ReadStep) : Edit Reader (List ReadValue) := steps.mapM read

/-- The reader after a sequence of fields, whether they could be read or not. -/
def run (steps : List ReadStep) (r : Reader) : Reader :=
  steps.foldl (fun r step => Edit.held (read step r)) r

/-- **A field is read exactly where the bytes that it is written as come next.** -/
theorem read_eq_ok : read step r = .ok value r' ↔
    value.step = step ∧ ∃ p, value.written.bytes = .ok p ∧ r.Took p r' := by
  -- each way to read has its own value, and has been looked at before
  cases step <;> unfold read <;> rw [map_eq_ok] <;> cases value <;>
    simp [ReadValue.step, ReadValue.written, WriteStep.bytes, int16_eq_ok, int32_eq_ok,
      single_eq_ok, bool_eq_ok, length_eq_ok, string_eq_ok, singles_eq_ok]

/-- Fields are read one after the other where their bytes come one after the other. -/
theorem readAll_eq_ok {steps : List ReadStep} : readAll steps r = .ok values r' ↔
    values.map ReadValue.step = steps ∧
      ∃ fields, List.Forall₂ (fun value p => value.written.bytes = .ok p) values fields ∧
        r.Took fields.flatten r' := by
  induction steps generalizing r values with
  | nil =>
    rw [List.map_eq_nil_iff]
    constructor
    · intro h
      cases h
      exact ⟨rfl, [], .nil, .nil _⟩
    · rintro ⟨rfl, fields, hfields, htook⟩
      rw [List.forall₂_nil_left_iff] at hfields
      rw [hfields, List.flatten_nil, took_nil_iff] at htook
      rw [htook]
      rfl
  | cons step steps ih =>
    have hcons : readAll (step :: steps) r =
        (do return (← read step) :: (← readAll steps)) r := congrFun List.mapM_cons r
    rw [hcons, bind_step_eq_ok]
    constructor
    · rintro ⟨value, m, hvalue, h⟩
      obtain ⟨later, m', hlater, h⟩ := bind_step_eq_ok.1 h
      cases h
      obtain ⟨hstep, p, hp, htook⟩ := read_eq_ok.1 hvalue
      obtain ⟨hsteps, fields, hfields, htook'⟩ := ih.1 hlater
      refine ⟨by rw [List.map_cons, hstep, hsteps], p :: fields, .cons hp hfields, ?_⟩
      rw [List.flatten_cons]
      exact took_append_iff.2 ⟨m, htook, htook'⟩
    · rintro ⟨hsteps, fields, hfields, htook⟩
      cases values with
      | nil => cases hsteps
      | cons value later =>
        rw [List.map_cons, List.cons.injEq] at hsteps
        obtain ⟨p, rest, hp, hrest, rfl⟩ := List.forall₂_cons_left_iff.1 hfields
        rw [List.flatten_cons, took_append_iff] at htook
        obtain ⟨m, htook, htook'⟩ := htook
        refine ⟨value, m, read_eq_ok.2 ⟨hsteps.1, p, hp, htook⟩, ?_⟩
        exact bind_step_eq_ok.2 ⟨later, r', ih.2 ⟨hsteps.2, rest, hrest, htook'⟩, rfl⟩

/-- A reader goes on over some bytes, whatever is read and whether it can be. -/
theorem exists_took_run (steps : List ReadStep) (r : Reader) :
    ∃ bytes, r.Took bytes (run steps r) := by
  induction steps generalizing r with
  | nil => exact ⟨[], .nil r⟩
  | cons step steps ih =>
    obtain ⟨bytes, htook⟩ := Onward.read step r
    obtain ⟨more, htook'⟩ := ih (Edit.held (read step r))
    exact ⟨bytes ++ more, took_append_iff.2 ⟨_, htook, htook'⟩⟩

end Reader

/-! ## Both together -/

/-- Fields that hold the same are written as the same bytes. -/
theorem WriteStep.bytes_of_shows {steps : List WriteStep} {values : List ReadValue}
    {fields : List Bytes} (hshows : List.Forall₂ WriteStep.Shows steps values)
    (hfields : List.Forall₂ (fun value p => value.written.bytes = .ok p) values fields) :
    List.Forall₂ (fun step p => step.bytes = .ok p) steps fields := by
  induction hshows generalizing fields with
  | nil =>
    rw [List.forall₂_nil_left_iff] at hfields
    rw [hfields]
    exact .nil
  | cons hstep _ ih =>
    obtain ⟨p, rest, hp, hrest, rfl⟩ := List.forall₂_cons_left_iff.1 hfields
    exact .cons (hstep.bytes_eq.trans hp) (ih hrest)

/-- The fields that fit, with their values and their bytes. -/
theorem WriteStep.exists_values {steps : List WriteStep} (h : ∀ step ∈ steps, step.matching?.isSome) :
    ∃ values, List.Forall₂ Shows (steps.filter (·.bytes.isOk)) values ∧
      values.map ReadValue.step = (steps.filter (·.bytes.isOk)).filterMap matching? ∧
      List.Forall₂ (fun value p => value.written.bytes = .ok p) values
        (steps.filterMap (·.bytes.toOption)) := by
  induction steps with
  | nil => exact ⟨[], .nil, rfl, .nil⟩
  | cons step steps ih =>
    obtain ⟨values, hshows, hsteps, hfields⟩ :=
      ih fun later hlater => h later (List.mem_cons_of_mem step hlater)
    rw [List.filter_cons, List.filterMap_cons]
    cases hbytes : step.bytes with
    | error e => exact ⟨values, hshows, hsteps, hfields⟩
    | ok p =>
      obtain ⟨value, hshow⟩ := exists_shows (h step List.mem_cons_self) hbytes
      refine ⟨value :: values, .cons hshow hshows, ?_, .cons ?_ hfields⟩
      · have hmatch := hshow.matching_eq
        simp only [List.map_cons, hsteps, Except.isOk, Except.toBool, if_true,
          List.filterMap_cons, hmatch]
      · rw [← hshow.bytes_eq, hbytes]

/-- Fields that have bytes all fit, and are written one after the other. -/
theorem Writer.run_of_forall₂ {steps : List WriteStep} {fields : List Bytes}
    (h : List.Forall₂ (fun step p => step.bytes = .ok p) steps fields) :
    (∀ step ∈ steps, step.bytes.isOk) ∧ (run steps .empty).bytes = fields.flatten := by
  have hfields : (∀ step ∈ steps, step.bytes.isOk) ∧
      steps.filterMap (·.bytes.toOption) = fields := by
    induction h with
    | nil => exact ⟨nofun, rfl⟩
    | cons hstep _ ih =>
      refine ⟨List.forall_mem_cons.2 ⟨isOk_iff.2 ⟨_, hstep⟩, ih.1⟩, ?_⟩
      rw [List.filterMap_cons, hstep, ih.2]
      rfl
  rw [run_eq, hfields.2]
  exact ⟨hfields.1, List.nil_append _⟩

namespace Reader

variable {bytes : Bytes} {reads : List ReadStep} {values : List ReadValue} {r : Reader}

/-- **What was written is read back**, whatever follows it, but for what did not fit. -/
theorem readAll_run {steps : List WriteStep} (h : ∀ step ∈ steps, step.matching?.isSome)
    (extra : Bytes) :
    ∃ values, List.Forall₂ WriteStep.Shows (steps.filter (·.bytes.isOk)) values ∧
      readAll ((steps.filter (·.bytes.isOk)).filterMap (·.matching?))
        (.ofBytes ((Writer.run steps .empty).bytes ++ extra)) =
      .ok values ⟨(Writer.run steps .empty).bytes.length, extra⟩ := by
  obtain ⟨values, hshows, hsteps, hfields⟩ := WriteStep.exists_values h
  have hbuffer : (Writer.run steps .empty).bytes =
      (steps.filterMap (·.bytes.toOption)).flatten := by
    rw [Writer.run_eq]
    exact List.nil_append _
  refine ⟨values, hshows, readAll_eq_ok.2 ⟨hsteps, _, hfields, ?_⟩⟩
  rw [hbuffer]
  exact took_ofBytes_iff.2 ⟨rfl, rfl⟩

/-- **What was read is written as it stood**, in any of the ways that match. -/
theorem run_of_readAll (h : readAll reads (.ofBytes bytes) = .ok values r)
    {steps : List WriteStep} (hshows : List.Forall₂ WriteStep.Shows steps values) :
    (∀ step ∈ steps, step.bytes.isOk) ∧ (Writer.run steps .empty).bytes ++ r.rest = bytes ∧
      r.position = (Writer.run steps .empty).bytes.length := by
  obtain ⟨-, fields, hfields, htook⟩ := readAll_eq_ok.1 h
  obtain ⟨hfit, hbuffer⟩ := Writer.run_of_forall₂ (WriteStep.bytes_of_shows hshows hfields)
  obtain ⟨hbytes, hposition⟩ := took_ofBytes_iff.1 htook
  rw [hbuffer]
  exact ⟨hfit, hbytes.symm, hposition⟩

/-- **A reader never goes back, and never past the last byte**, wherever reads fail. -/
theorem position_run_le (bytes : Bytes) (before after : List ReadStep) :
    (run before (.ofBytes bytes)).position ≤ (run (before ++ after) (.ofBytes bytes)).position ∧
      (run (before ++ after) (.ofBytes bytes)).position ≤ bytes.length := by
  have hrun : run (before ++ after) (.ofBytes bytes) = run after (run before (.ofBytes bytes)) :=
    List.foldl_append
  obtain ⟨later, -, hlater⟩ := exists_took_run after (run before (.ofBytes bytes))
  obtain ⟨passed, htook⟩ := exists_took_run (before ++ after) (.ofBytes bytes)
  obtain ⟨hbytes, hposition⟩ := took_ofBytes_iff.1 htook
  have hlength := congrArg List.length hbytes
  rw [List.length_append] at hlength
  rw [← hrun] at hlater
  omega

end Reader

/-- **Reading undoes writing, and writing undoes reading.** Fields that do not fit
leave the buffer as it is; the others are read back from it, whatever follows them.
Fields that were read all fit and are written as the bytes that were passed. And no
read, be it refused, leads back or past the last byte. -/
theorem writing_and_reading :
    (∀ (step : WriteStep) (w : Writer), Writer.write step w = match step.bytes with
      | .ok field => .ok () ⟨w.bytes ++ field⟩
      | .error e => .error e w) ∧
    (∀ steps : List WriteStep, (Writer.run steps .empty).bytes =
      (steps.filterMap (·.bytes.toOption)).flatten) ∧
    (∀ steps : List WriteStep, (∀ step ∈ steps, step.matching?.isSome) → ∀ extra : Bytes,
      ∃ values, List.Forall₂ WriteStep.Shows (steps.filter (·.bytes.isOk)) values ∧
        Reader.readAll ((steps.filter (·.bytes.isOk)).filterMap (·.matching?))
          (.ofBytes ((Writer.run steps .empty).bytes ++ extra)) =
        .ok values ⟨(Writer.run steps .empty).bytes.length, extra⟩) ∧
    (∀ (bytes : Bytes) (reads : List ReadStep) (values : List ReadValue) (r : Reader),
      Reader.readAll reads (.ofBytes bytes) = .ok values r →
      values.map ReadValue.step = reads ∧
      List.Forall₂ WriteStep.Shows (values.map ReadValue.written) values ∧
      ∀ steps : List WriteStep, List.Forall₂ WriteStep.Shows steps values →
        (∀ step ∈ steps, step.bytes.isOk) ∧ (Writer.run steps .empty).bytes ++ r.rest = bytes ∧
          r.position = (Writer.run steps .empty).bytes.length) ∧
    ∀ (bytes : Bytes) (before after : List ReadStep),
      (Reader.run before (.ofBytes bytes)).position ≤
          (Reader.run (before ++ after) (.ofBytes bytes)).position ∧
        (Reader.run (before ++ after) (.ofBytes bytes)).position ≤ bytes.length := by
  refine ⟨Writer.write_eq, ?_, fun steps h extra => Reader.readAll_run h extra, ?_,
    Reader.position_run_le⟩
  · intro steps
    rw [Writer.run_eq]
    exact List.nil_append _
  · intro bytes reads values r h
    refine ⟨(Reader.readAll_eq_ok.1 h).1, ?_, fun steps => Reader.run_of_readAll h⟩
    rw [List.forall₂_map_left_iff, List.forall₂_same]
    exact fun value _ => WriteStep.shows_written value

/-- So for five fields, one of which is too great and one no number, and for two that are read. -/
theorem writing_and_reading_mixed :
    (∃ values,
      List.Forall₂ WriteStep.Shows
        [.bool true, .string "é", .single ⟨0x7fc00001#32⟩, .checkedInt16 (-2)] values ∧
      Reader.readAll [.bool, .string, .single, .int16]
        (.ofBytes ([1, 0xc3, 0xa9, 0, 1, 0, 0xc0, 0x7f, 0xfe, 0xff] ++ [5])) = .ok values ⟨10, [5]⟩) ∧
    (Writer.run [.length 3, .bool false] .empty).bytes ++ [9] = [3, 0, 0, 0, 0, 9] := by
  have hwritten := writing_and_reading.2.2.1
    [.bool true, .checkedInt16 40000, .string "é", .single ⟨0x7fc00001#32⟩, .checkedInt16 (-2)]
    (by decide) [5]
  have hread : Reader.readAll [.length, .bool] (.ofBytes [3, 0, 0, 0, 0, 9]) =
      .ok [.length 3, .bool false] ⟨5, [9]⟩ := rfl
  exact ⟨hwritten, ((writing_and_reading.2.2.2.1 _ _ _ _ hread).2.2 [.length 3, .bool false]
    (.cons rfl (.cons rfl .nil))).2.1⟩

end MapDocument
