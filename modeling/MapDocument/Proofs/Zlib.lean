import Mathlib.Data.List.Basic
import MapDocument.Proofs.Deflate.Packed
import MapDocument.Proofs.Deflate.Stored
import MapDocument.Zlib
/-!
# Zlib — what a stream is

A sequence of bytes begins with a stream, or it does not, and what follows has no
part in it: `IsStream` says which bytes the reader takes for a whole stream of
which content, and a stream is read exactly where one stands. Whatever was written is one, whether
its blocks hold the content as it is or packed.
-/

namespace MapDocument.Zlib

open Deflate

/-! ## Checksum -/

/-- **The checksum is a four-byte number**, as both sums are remainders. -/
theorem checksum_lt (content : Array UInt8) : checksum content < Nat.pow 256 4 := by
  have hmodulus : checksumModulus = 65521 := rfl
  have hpow : Nat.pow 256 4 = 4294967296 := rfl
  unfold checksum
  split
  rename_i low high hfold
  -- both sums stay below the modulus from the first byte on
  have hsums : (low, high).1 < checksumModulus ∧ (low, high).2 < checksumModulus := by
    rw [← hfold]
    refine Array.foldl_induction
      (motive := fun _ (sums : Nat × Nat) => sums.1 < checksumModulus ∧ sums.2 < checksumModulus)
      ⟨by decide, by decide⟩ ?_
    intro i sums _
    obtain ⟨low, high⟩ := sums
    exact ⟨Nat.mod_lt _ (by decide), Nat.mod_lt _ (by decide)⟩
  have hlow : low < checksumModulus := hsums.1
  have hhigh : high < checksumModulus := hsums.2
  omega

/-! ## What a stream is -/

/-- A whole stream: a header, blocks, and the checksum of what they put out. Blocks are what the
reader takes for such, not all of which the format allows: a copy from before the first byte reads
zeros. -/
def IsStream (bytes content : Bytes) : Prop :=
  ∃ method flags blocks, isHeader method flags = true ∧ IsBlocks blocks content ∧
    bytes = method :: flags :: (blocks ++ (littleEndian 4 (checksum content.toArray)).reverse)

/-! ## Reading -/

section Reading

variable {pending : List Bool} {bytes : Bytes} {output : Array UInt8} {s : Stream}

/-- A byte is read where one comes next. -/
theorem byte_eq_ok {b : UInt8} : Decoder.byte ⟨pending, bytes, output⟩ = .ok b s ↔
    ∃ rest, bytes = b :: rest ∧ s = ⟨pending, rest, output⟩ := by
  constructor
  · intro h
    cases bytes with
    | nil => cases h
    | cons c rest =>
      cases h
      exact ⟨rest, rfl, rfl⟩
  · rintro ⟨rest, rfl, rfl⟩
    rfl

/-- A number is read where its four bytes come next, the most significant first. -/
theorem bigWord_eq_ok {n : Nat} : bigWord ⟨pending, bytes, output⟩ = .ok n s ↔
    n < Nat.pow 256 4 ∧
      ∃ rest, bytes = (littleEndian 4 n).reverse ++ rest ∧ s = ⟨pending, rest, output⟩ := by
  have hnumber (b₃ b₂ b₁ b₀ : UInt8) :
      ((b₃.toNat * 256 + b₂.toNat) * 256 + b₁.toNat) * 256 + b₀.toNat =
        ofLittleEndian [b₀, b₁, b₂, b₃] := by
    simp only [ofLittleEndian]
    omega
  constructor
  · intro h
    obtain ⟨b₃, _, h₃, h⟩ := bind_step_eq_ok.1 h
    obtain ⟨_, rfl, rfl⟩ := byte_eq_ok.1 h₃
    obtain ⟨b₂, _, h₂, h⟩ := bind_step_eq_ok.1 h
    obtain ⟨_, rfl, rfl⟩ := byte_eq_ok.1 h₂
    obtain ⟨b₁, _, h₁, h⟩ := bind_step_eq_ok.1 h
    obtain ⟨_, rfl, rfl⟩ := byte_eq_ok.1 h₁
    obtain ⟨b₀, _, h₀, h⟩ := bind_step_eq_ok.1 h
    obtain ⟨rest, rfl, rfl⟩ := byte_eq_ok.1 h₀
    cases h
    have hback : littleEndian 4 (ofLittleEndian [b₀, b₁, b₂, b₃]) = [b₀, b₁, b₂, b₃] :=
      littleEndian_ofLittleEndian [b₀, b₁, b₂, b₃]
    rw [hnumber, hback]
    exact ⟨ofLittleEndian_lt [b₀, b₁, b₂, b₃], rest, rfl, rfl⟩
  · rintro ⟨hfits, rest, rfl, rfl⟩
    have hword : ofLittleEndian (littleEndian 4 n) = n := ofLittleEndian_littleEndian hfits
    generalize hbytes : littleEndian 4 n = four at hword
    have hlength : four.length = 4 := by rw [← hbytes, length_littleEndian]
    obtain ⟨b₀, b₁, b₂, b₃, rfl⟩ := List.length_eq_four.1 hlength
    have hread : bigWord ⟨pending, [b₀, b₁, b₂, b₃].reverse ++ rest, output⟩ =
        .ok (((b₃.toNat * 256 + b₂.toNat) * 256 + b₁.toNat) * 256 + b₀.toNat)
          ⟨pending, rest, output⟩ := rfl
    rw [hread, hnumber, hword]

/-- **A stream is read where one stands**, whatever follows it. -/
theorem read_eq_ok : read bytes = .ok () s ↔
    ∃ whole rest content, IsStream whole content ∧ bytes = whole ++ rest ∧
      s = ⟨[], rest, content.toArray⟩ := by
  constructor
  · intro h
    obtain ⟨method, _, hmethod, h₁⟩ := bind_step_eq_ok.1 h
    obtain ⟨_, rfl, rfl⟩ := byte_eq_ok.1 hmethod
    obtain ⟨flags, _, hflags, h₂⟩ := bind_step_eq_ok.1 h₁
    obtain ⟨behind, rfl, rfl⟩ := byte_eq_ok.1 hflags
    split at h₂
    · cases h₂
    rename_i hheader
    obtain ⟨_, ⟨pending, left, output⟩, hread, h₃⟩ := bind_step_eq_ok.1 h₂
    obtain ⟨blocks, hblocks, rfl⟩ := exists_blocks_iff.1 ⟨pending, hread⟩
    obtain ⟨_, _, halign, h₄⟩ := bind_step_eq_ok.1 h₃
    cases halign
    obtain ⟨sum, _, hsum, h₅⟩ := bind_step_eq_ok.1 h₄
    obtain ⟨-, rest, rfl, rfl⟩ := bigWord_eq_ok.1 hsum
    obtain ⟨_, _, hget, h₆⟩ := bind_step_eq_ok.1 h₅
    cases hget
    split at h₆
    · cases h₆
    rename_i hchecksum
    cases h₆
    obtain rfl : sum = checksum output := Decidable.not_not.1 hchecksum
    refine ⟨_, rest, output.toList, ⟨method, flags, blocks, ?_, hblocks, rfl⟩, ?_, rfl⟩
    · simpa using hheader
    · simp
  · rintro ⟨_, rest, content, ⟨method, flags, blocks, hheader, hblocks, rfl⟩, rfl, rfl⟩
    obtain ⟨pending, hread⟩ := exists_blocks_iff.2 ⟨blocks, hblocks, rfl⟩
    have hsum := checksum_lt content.toArray
    have hstart : Stream.ofBytes (method :: flags ::
        (blocks ++ (littleEndian 4 (checksum content.toArray)).reverse) ++ rest) =
        ⟨[], method :: flags ::
          (blocks ++ ((littleEndian 4 (checksum content.toArray)).reverse ++ rest)), #[]⟩ := by
      simp [Stream.ofBytes]
    rw [read, hstart]
    -- two bytes of header, the blocks, and the checksum from the next whole byte on
    refine (bind_of_eq_ok (byte_eq_ok.2 ⟨_, rfl, rfl⟩)).trans ?_
    refine (bind_of_eq_ok (byte_eq_ok.2 ⟨_, rfl, rfl⟩)).trans ?_
    dsimp only
    rw [if_neg (by simpa using hheader)]
    refine (bind_of_eq_ok hread).trans ?_
    refine (bind_of_eq_ok (Decoder.align_eq _ _ _)).trans ?_
    refine (bind_of_eq_ok (bigWord_eq_ok.2 ⟨hsum, rest, rfl, rfl⟩)).trans ?_
    exact congrFun (if_neg (not_not_intro rfl)) _

end Reading

/-! ## Writing -/

/-- **What was written is a stream**, with whatever effort it was. -/
theorem isStream_write (effort : Nat) (content : Bytes) :
    IsStream (write effort content) content := by
  have hframe {blocks : Bytes} (h : IsBlocks blocks content) : IsStream (frame blocks content) content :=
    ⟨0x78, 0x9c, blocks, by decide, h, rfl⟩
  unfold write
  dsimp only
  split
  · exact hframe (isBlocks_stored content)
  · split
    · exact hframe (isBlocks_packed effort content)
    · exact hframe (isBlocks_stored content)

end MapDocument.Zlib
