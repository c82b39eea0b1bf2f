import MapDocument.Deflate.Reader
import MapDocument.Proofs.Outcome
/-!
# Deflate — what follows does not matter

A decoder looks at nothing behind the byte that it stops in. Where it succeeds,
it would have taken the same bytes and put out the same whatever followed them,
with any fuel that suffices for the bits it took: `Takes` says so of one run and
`Local` of all. Fuel is counted in bits, as no step of a loop takes none.
-/

namespace MapDocument.Deflate

variable {α β : Type} {s m s' : Stream} {a : α} {b : β}

/-! ## Runs -/

/-- How many bits are left. -/
def Stream.left (s : Stream) : Nat := s.pending.length + 8 * s.bytes.length

/-- From one place to another a decoder takes so many bits at least, and would do so whatever
followed and with whatever fuel is enough. -/
def Takes (least : Nat) (d : Nat → Decoder α) (s : Stream) (a : α) (s' : Stream) : Prop :=
  s'.left + least ≤ s.left ∧ ∃ used, s.bytes = used ++ s'.bytes ∧
    ∀ fuel rest, s.left ≤ fuel + s'.left →
      d fuel { s with bytes := used ++ rest } = .ok a { s' with bytes := rest }

/-- A decoder does so wherever it succeeds. -/
def Local (least : Nat) (d : Nat → Decoder α) : Prop :=
  ∀ fuel s a s', d fuel s = .ok a s' → Takes least d s a s'

namespace Takes

variable {i j : Nat} {x d : Nat → Decoder α} {f : α → Nat → Decoder β} {e : Nat → Decoder β}

theorem pure (a : α) (s : Stream) : Takes 0 (fun _ => Pure.pure a) s a s :=
  ⟨Nat.le_refl _, [], rfl, fun _ _ _ => rfl⟩

/-- One run goes on from the end of another. -/
theorem bind (hx : Takes i x s a m) (hf : Takes 0 (f a) m b s') :
    Takes i (fun fuel => x fuel >>= fun a => f a fuel) s b s' := by
  obtain ⟨hbits, used, hused, hrun⟩ := hx
  obtain ⟨hbits', used', hused', hrun'⟩ := hf
  refine ⟨by omega, used ++ used', by rw [hused, hused', List.append_assoc], ?_⟩
  intro fuel rest hfuel
  rw [List.append_assoc]
  exact (bind_of_eq_ok (hrun fuel (used' ++ rest) (by omega))).trans (hrun' fuel rest (by omega))

/-- In a loop that takes a bit in each step, one step less of fuel is left for the others. -/
theorem step (hstep : ∀ fuel, e (fuel + 1) = x (fuel + 1) >>= fun a => f a fuel)
    (hx : Takes 1 x s a m) (hf : Takes j (f a) m b s') : Takes 1 e s b s' := by
  obtain ⟨hbits, used, hused, hrun⟩ := hx
  obtain ⟨hbits', used', hused', hrun'⟩ := hf
  refine ⟨by omega, used ++ used', by rw [hused, hused', List.append_assoc], ?_⟩
  intro fuel rest hfuel
  obtain ⟨fuel, rfl⟩ : ∃ k, fuel = k + 1 := ⟨fuel - 1, by omega⟩
  rw [List.append_assoc, hstep]
  refine (bind_of_eq_ok (hrun (fuel + 1) (used' ++ rest) (by omega))).trans ?_
  exact hrun' fuel rest (by omega)

theorem mono (h : Takes i d s a s') (hle : j ≤ i) : Takes j d s a s' :=
  ⟨Nat.le_trans (Nat.add_le_add_left hle _) h.1, h.2⟩

/-- More fuel is as good. -/
theorem shift (h : Takes i d s a s') (more : Nat) : Takes i (fun fuel => d (fuel + more)) s a s' := by
  obtain ⟨hbits, used, hused, hrun⟩ := h
  exact ⟨hbits, used, hused, fun fuel rest hfuel => hrun (fuel + more) rest (by omega)⟩

end Takes

namespace Local

variable {i j : Nat} {x d : Nat → Decoder α} {f : α → Nat → Decoder β}

theorem pure (a : α) : Local 0 fun _ => (Pure.pure a : Decoder α) := by
  intro fuel s b s' h
  cases h
  exact .pure a s

theorem corrupt : Local i fun _ => (Decoder.corrupt : Decoder α) := nofun

/-- A sequence of such decoders is one. -/
theorem bind (hx : Local i x) (hf : ∀ a, Local 0 (f a)) :
    Local i fun fuel => x fuel >>= fun a => f a fuel := by
  intro fuel s b s' h
  obtain ⟨a, m, ha, hb⟩ := bind_step_eq_ok.1 h
  exact (hx fuel s a m ha).bind (hf a fuel m b s' hb)

theorem mono (h : Local i d) (hle : j ≤ i) : Local j d :=
  fun fuel s a s' hrun => (h fuel s a s' hrun).mono hle

/-- What is put out has no part in what is taken. -/
theorem modifyOutput (g : Array UInt8 → Array UInt8) :
    Local 0 fun _ => (modify fun s => { s with output := g s.output } : Decoder Unit) := by
  intro fuel s a s' h
  cases h
  exact ⟨Nat.le_refl _, [], rfl, fun _ _ _ => rfl⟩

end Local

/-! ## Bits and bytes -/

theorem length_bitsOf (count n : Nat) : (bitsOf count n).length = count := by
  induction count generalizing n with
  | zero => rfl
  | succ count ih => rw [bitsOf, List.length_cons, ih]

namespace Decoder

open Deflate (Local)

theorem local_bit : Local 1 fun _ => bit := by
  intro fuel s b s' h
  obtain ⟨pending, bytes, output⟩ := s
  cases pending with
  | cons c pending =>
    cases h
    refine ⟨?_, [], rfl, fun _ _ _ => rfl⟩
    simp only [Stream.left, List.length_cons]
    omega
  | nil =>
    cases bytes with
    | nil => cases h
    | cons byte bytes =>
      cases h
      refine ⟨?_, [byte], rfl, fun _ _ _ => rfl⟩
      simp only [Stream.left, List.length_cons, List.length_nil, length_bitsOf]
      omega

theorem local_byte : Local 0 fun _ => byte := by
  intro fuel s b s' h
  obtain ⟨pending, bytes, output⟩ := s
  cases bytes with
  | nil => cases h
  | cons c bytes =>
    cases h
    refine ⟨?_, [_], rfl, fun _ _ _ => rfl⟩
    simp only [Stream.left, List.length_cons]
    omega

theorem local_align : Local 0 fun _ => align := by
  intro fuel s a s' h
  cases h
  refine ⟨?_, [], rfl, fun _ _ _ => rfl⟩
  simp only [Stream.left, List.length_nil]
  omega

theorem local_bits (count : Nat) : Local 0 fun _ => bits count := by
  induction count with
  | zero => exact .pure 0
  | succ count ih =>
    exact (local_bit.mono (Nat.zero_le 1)).bind fun b => ih.bind fun n => .pure _

theorem local_put (b : UInt8) : Local 0 fun _ => put b := .modifyOutput (·.push b)

theorem local_passOn (count : Nat) : Local 0 fun _ => passOn count := by
  induction count with
  | zero => exact .pure ()
  | succ count ih => exact local_byte.bind fun b => (local_put b).bind fun _ => ih

theorem local_word : Local 0 fun _ => word :=
  local_byte.bind fun _ => local_byte.bind fun _ => .pure _

/-- A block of bytes as they are. -/
theorem local_storedBlock : Local 0 fun _ => storedBlock := by
  refine local_align.bind fun _ => local_word.bind fun count => local_word.bind fun complement => ?_
  split
  · exact local_passOn count
  · exact .corrupt

/-! ## Symbols and tokens -/

theorem local_read (code : PrefixCode) : Local 0 fun _ => code.read := by
  induction code with
  | unused => exact .corrupt
  | symbol s => exact .pure s
  | branch zero one ihZero ihOne =>
    refine (local_bit.mono (Nat.zero_le 1)).bind fun b => ?_
    split
    · exact ihOne
    · exact ihZero

/-- A code whose first bit is not yet a symbol takes a bit. -/
theorem local_read_one {code : PrefixCode} (h : ∀ s, code ≠ .symbol s) :
    Local 1 fun _ => code.read := by
  cases code with
  | unused => exact .corrupt
  | symbol s => exact absurd rfl (h s)
  | branch zero one =>
    refine local_bit.bind fun b => ?_
    split
    · exact local_read one
    · exact local_read zero

theorem local_inSpan (spans : Array Span) (symbol : Nat) :
    Local 0 fun _ => Token.inSpan spans symbol := by
  unfold Token.inSpan
  split
  · exact .corrupt
  · exact (local_bits _).bind fun n => .pure _

theorem local_token {codes : BlockCodes} (h : ∀ s, codes.main ≠ .symbol s) :
    Local 1 fun _ => Token.read? codes := by
  refine (local_read_one h).bind fun symbol => ?_
  split
  · exact .pure _
  · split
    · exact .pure _
    · refine (local_inSpan _ _).bind fun length => (local_read _).bind fun symbol => ?_
      exact (local_inSpan _ _).bind fun distance => .pure _

/-- The tokens of a block take a bit each. -/
theorem local_tokens {codes : BlockCodes} (h : ∀ s, codes.main ≠ .symbol s) :
    Local 0 (tokens codes) := by
  intro fuel s _ s' hrun
  refine Takes.mono (i := 1) ?_ (Nat.zero_le 1)
  induction fuel generalizing s with
  | zero => cases hrun
  | succ fuel ih =>
    obtain ⟨token?, m, htoken, hrest⟩ := bind_step_eq_ok.1 hrun
    have hfirst := local_token h fuel s token? m htoken
    refine hfirst.step (fun _ => rfl) (j := 0) ?_
    cases token? with
    | none =>
      cases hrest
      exact .pure () _
    | some token =>
      obtain ⟨_, m', hput, hrest⟩ := bind_step_eq_ok.1 hrest
      have happly := Local.modifyOutput (token.apply ·) fuel m () m' hput
      exact happly.bind ((ih m' hrest).mono (Nat.zero_le 1))

/-! ## Codes described by a block -/

theorem local_triples (count : Nat) : Local 0 fun _ => triples count := by
  induction count with
  | zero => exact .pure []
  | succ count ih => exact (local_bits 3).bind fun n => ih.bind fun later => .pure _

theorem local_lengthCode (given : Nat) : Local 0 fun _ => lengthCode given := by
  refine (local_triples given).bind fun lengths => ?_
  dsimp only
  split
  · exact .pure _
  · exact .corrupt

theorem local_lengthRun (code : PrefixCode) (last? : Option Nat) :
    Local 0 fun _ => lengthRun code last? := by
  refine (local_read code).bind fun symbol => ?_
  split
  · exact .pure _
  · split
    · split
      · exact (local_bits 2).bind fun n => .pure _
      · exact .corrupt
    · split
      · exact (local_bits 3).bind fun n => .pure _
      · exact (local_bits 7).bind fun n => .pure _

theorem local_lengths (code : PrefixCode) (missing : Nat) (found : List Nat) :
    Local 0 fun _ => lengths code missing found := by
  induction missing using Nat.strongRecOn generalizing found with
  | ind missing ih =>
    unfold lengths
    cases missing with
    | zero => exact .pure _
    | succ missing =>
      refine (local_lengthRun code found.head?).bind fun run => ?_
      dsimp only
      split
      · exact ih _ (by omega) _
      · exact .corrupt

theorem local_codes : Local 0 fun _ => codes := by
  refine (local_bits 5).bind fun main => (local_bits 5).bind fun distance =>
    (local_bits 4).bind fun given => ?_
  dsimp only
  split
  case' isTrue => refine Local.corrupt.bind fun _ => ?_
  all_goals
    refine (local_lengthCode _).bind fun code => (local_lengths code _ _).bind fun found => ?_
    split
    · exact .pure _
    · exact .corrupt

/-! ## Blocks -/

/-- A code that is told by lengths has no symbol before the first bit. -/
theorem ne_symbol_of_ofLengths? {mayBeLone : Bool} {lengths : List Nat} {code : PrefixCode}
    (h : PrefixCode.ofLengths? mayBeLone lengths = some code) (symbol : Nat) :
    code ≠ .symbol symbol := by
  unfold PrefixCode.ofLengths? at h
  dsimp only at h
  split at h
  · cases h
    nofun
  · cases h

theorem fixed_main_ne_symbol (symbol : Nat) : BlockCodes.fixed.main ≠ .symbol symbol := by
  unfold BlockCodes.fixed
  cases h : PrefixCode.ofLengths? false (List.replicate 144 8 ++ List.replicate 112 9 ++
      List.replicate 24 7 ++ List.replicate 8 8) with
  | none => nofun
  | some code => exact ne_symbol_of_ofLengths? h symbol

/-- Nor do the codes that a block describes. -/
theorem main_ne_symbol_of_codes {described : BlockCodes} (h : codes s = .ok described s')
    (symbol : Nat) : described.main ≠ .symbol symbol := by
  obtain ⟨main, m₁, -, h⟩ := bind_step_eq_ok.1 h
  obtain ⟨distance, m₂, -, h⟩ := bind_step_eq_ok.1 h
  obtain ⟨given, m₃, -, h⟩ := bind_step_eq_ok.1 h
  dsimp only at h
  split at h
  · cases h
  · obtain ⟨code, m₄, -, h⟩ := bind_step_eq_ok.1 h
    obtain ⟨found, m₅, -, h⟩ := bind_step_eq_ok.1 h
    cases hmain : PrefixCode.ofLengths? true (found.take (257 + main)) with
    | none =>
      simp only [hmain] at h
      cases h
    | some mainCode =>
      cases hdistance : PrefixCode.ofLengths? true (found.drop (257 + main)) with
      | none =>
        simp only [hmain, hdistance] at h
        cases h
      | some distanceCode =>
        simp only [hmain, hdistance] at h
        cases h
        exact ne_symbol_of_ofLengths? hmain symbol

/-- A block takes a bit. -/
theorem local_block : Local 1 block := by
  refine local_bit.bind fun last => (local_bits 2).bind fun sort => ?_
  split
  · exact local_storedBlock.bind fun _ => .pure last
  · split
    · exact (local_tokens fixed_main_ne_symbol).bind fun _ => .pure last
    · split
      · intro fuel s answer s' hrun
        obtain ⟨described, m, hcodes, hrun⟩ := bind_step_eq_ok.1 hrun
        have htokens := local_tokens (main_ne_symbol_of_codes hcodes)
        exact (local_codes fuel s described m hcodes).bind
          ((htokens.bind fun _ => .pure last) fuel m answer s' hrun)
      · exact Local.corrupt.bind fun _ => .pure last

/-- The blocks take a bit each, and neither sort of fuel has to be more than the bits. -/
theorem takes_blocksWithin {fuel more : Nat} (h : blocksWithin fuel more s = .ok () s')
    (ahead : Nat) : Takes 1 (fun more => blocksWithin (more + ahead) more) s () s' := by
  induction more generalizing s ahead with
  | zero => cases h
  | succ more ih =>
    obtain ⟨last, m, hblock, hrest⟩ := bind_step_eq_ok.1 h
    have hfirst := (local_block fuel s last m hblock).shift ahead
    refine hfirst.step (j := 0) (f := fun last more =>
      if last then Pure.pure () else blocksWithin (more + 1 + ahead) more) (fun _ => rfl) ?_
    cases last with
    | true =>
      cases hrest
      exact .pure () _
    | false =>
      have hlater := (ih hrest (1 + ahead)).mono (Nat.zero_le 1)
      show Takes 0 (fun more => blocksWithin (more + 1 + ahead) more) m () s'
      simpa only [Nat.add_assoc] using hlater

/-- Blocks that are read with any fuel from the start of a stream are read with that for all its
bits, whatever follows them. -/
theorem exists_blocks_append {fuel more : Nat} {bytes : Bytes}
    (h : blocksWithin fuel more (.ofBytes bytes) = .ok () s') :
    ∃ used, bytes = used ++ s'.bytes ∧
      ∀ rest, blocks (.ofBytes (used ++ rest)) = .ok () { s' with bytes := rest } := by
  obtain ⟨hbits, used, hused, hrun⟩ := takes_blocksWithin h 0
  refine ⟨used, hused, fun rest => hrun (8 * (used ++ rest).length) rest ?_⟩
  have hlength := congrArg List.length hused
  simp only [Stream.left, Stream.ofBytes, List.length_append, List.length_nil] at hlength ⊢
  omega

end Decoder

/-- Blocks that put content out, to the last of their bytes. -/
def IsBlocks (bytes content : Bytes) : Prop :=
  ∃ pending, Decoder.blocks (.ofBytes bytes) = .ok () ⟨pending, [], content.toArray⟩

/-- **Blocks are read where they stand**, whatever follows them. -/
theorem exists_blocks_iff {bytes rest content : Bytes} :
    (∃ pending, Decoder.blocks (.ofBytes bytes) = .ok () ⟨pending, rest, content.toArray⟩) ↔
      ∃ whole, IsBlocks whole content ∧ bytes = whole ++ rest := by
  constructor
  · rintro ⟨pending, h⟩
    obtain ⟨used, hused, hrun⟩ := Decoder.exists_blocks_append h
    have hnothing := hrun []
    rw [List.append_nil] at hnothing
    exact ⟨used, ⟨pending, hnothing⟩, hused⟩
  · rintro ⟨whole, ⟨pending, h⟩, rfl⟩
    obtain ⟨used, hused, hrun⟩ := Decoder.exists_blocks_append h
    refine ⟨pending, ?_⟩
    rw [hused, List.append_nil]
    exact hrun rest

end MapDocument.Deflate
