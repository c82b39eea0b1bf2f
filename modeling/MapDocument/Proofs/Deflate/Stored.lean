import MapDocument.Deflate.Writer
import MapDocument.Proofs.Bytes.LittleEndian
import MapDocument.Proofs.Deflate.Local
/-!
# Deflate — bytes as they are come back

Content that was written as it is, in as many blocks as it takes, is put out
again by the decoder, which then stands right behind the last block. The
decoder has fuel for one block for each bit, and a block has more than one.
-/

namespace MapDocument.Deflate

/-! ## One block -/

namespace Decoder

variable {pending : List Bool} {bytes : Bytes} {output : Array UInt8}

theorem align_eq (pending : List Bool) (bytes : Bytes) (output : Array UInt8) :
    align ⟨pending, bytes, output⟩ = .ok () ⟨[], bytes, output⟩ := rfl

/-- **The next bytes are put out**, as many as are asked for. -/
theorem passOn_append (content rest : Bytes) :
    passOn content.length ⟨pending, content ++ rest, output⟩ =
      .ok () ⟨pending, rest, output ++ content.toArray⟩ := by
  induction content generalizing output with
  | nil =>
    rw [Array.append_empty]
    rfl
  | cons b content ih =>
    have hpush : output ++ (b :: content).toArray = output.push b ++ content.toArray := by
      simp
    rw [hpush, ← ih]
    rfl

/-- A two-byte number comes back from its bytes. -/
theorem word_littleEndian {n : Nat} (h : n ≤ storedLimit) (rest : Bytes) :
    word ⟨pending, littleEndian 2 n ++ rest, output⟩ = .ok n ⟨pending, rest, output⟩ := by
  have hfits : n < Nat.pow 256 2 := Nat.lt_succ_of_le h
  have hword : ofLittleEndian (littleEndian 2 n) = n := ofLittleEndian_littleEndian hfits
  have hread : word ⟨pending, littleEndian 2 n ++ rest, output⟩ =
      .ok (ofLittleEndian (littleEndian 2 n)) ⟨pending, rest, output⟩ := rfl
  rw [hread, hword]

/-- A block of bytes as they are is put out, after what was left of a byte. -/
theorem storedBlock_append {content : Bytes} (h : content.length ≤ storedLimit) (rest : Bytes) :
    storedBlock ⟨pending, littleEndian 2 content.length ++
        (littleEndian 2 (storedLimit - content.length) ++ (content ++ rest)), output⟩ =
      .ok () ⟨[], rest, output ++ content.toArray⟩ := by
  have hsum : content.length + (storedLimit - content.length) = 0xffff := Nat.add_sub_cancel' h
  refine (bind_of_eq_ok (align_eq _ _ _)).trans ?_
  refine (bind_of_eq_ok (word_littleEndian h _)).trans ?_
  refine (bind_of_eq_ok (word_littleEndian (Nat.sub_le _ _) _)).trans ?_
  rw [if_pos hsum]
  exact passOn_append content rest

/-- **A block that was written as it is is read back**, with the mark of the last. -/
theorem block_storedBlock {content : Bytes} (h : content.length ≤ storedLimit) (last : Bool)
    (rest : Bytes) (fuel : Nat) :
    block fuel ⟨[], Deflate.storedBlock last content ++ rest, output⟩ =
      .ok last ⟨[], rest, output ++ content.toArray⟩ := by
  have hbytes : Deflate.storedBlock last content ++ rest =
      UInt8.ofNat last.toNat :: (littleEndian 2 content.length ++
        (littleEndian 2 (storedLimit - content.length) ++ (content ++ rest))) := by
    simp [Deflate.storedBlock]
  have hlast (bytes : Bytes) : bit ⟨[], UInt8.ofNat last.toNat :: bytes, output⟩ =
      .ok last ⟨List.replicate 7 false, bytes, output⟩ := by
    cases last <;> rfl
  have hsort (bytes : Bytes) : bits 2 ⟨List.replicate 7 false, bytes, output⟩ =
      .ok 0 ⟨List.replicate 5 false, bytes, output⟩ := rfl
  rw [hbytes]
  refine (bind_of_eq_ok (hlast _)).trans ?_
  refine (bind_of_eq_ok (hsort _)).trans ?_
  exact bind_of_eq_ok (storedBlock_append h rest)

end Decoder

/-! ## All blocks -/

/-- A block begins with a mark. -/
theorem length_storedBlock (last : Bool) (content : Bytes) :
    (storedBlock last content).length = content.length + 5 := by
  simp [storedBlock]
  omega

/-- **Content that was written as it is is read back.** -/
theorem Decoder.blocksWithin_stored (content rest : Bytes) (fuel more : Nat)
    (h : (stored content).length ≤ more) (output : Array UInt8) :
    blocksWithin fuel more ⟨[], stored content ++ rest, output⟩ =
      .ok () ⟨[], rest, output ++ content.toArray⟩ := by
  induction content using stored.induct generalizing more output with
  | case1 content hshort =>
    rw [stored, if_pos hshort] at h ⊢
    obtain ⟨more, rfl⟩ : ∃ k, more = k + 1 :=
      ⟨more - 1, by rw [length_storedBlock] at h; omega⟩
    exact bind_of_eq_ok (block_storedBlock hshort true rest fuel)
  | case2 content hlong ih =>
    -- each block is longer than what it holds, so the fuel lasts for those that follow
    rw [stored, if_neg hlong] at h ⊢
    rw [List.length_append, length_storedBlock] at h
    obtain ⟨more, rfl⟩ : ∃ k, more = k + 1 := ⟨more - 1, by omega⟩
    have hpart : (content.take storedLimit).length ≤ storedLimit := List.length_take_le _ _
    have houtput : output ++ (content.take storedLimit).toArray ++
        (content.drop storedLimit).toArray = output ++ content.toArray := by
      rw [Array.append_assoc, List.append_toArray (content.take storedLimit),
        List.take_append_drop]
    rw [List.append_assoc, ← houtput]
    refine (bind_of_eq_ok (block_storedBlock hpart false _ fuel)).trans ?_
    exact ih more (by omega) _

/-- All blocks are read, and nothing is left over. -/
theorem isBlocks_stored (content : Bytes) : IsBlocks (stored content) content := by
  have hfuel : (stored content).length ≤ 8 * (stored content).length :=
    Nat.le_mul_of_pos_left _ (by decide)
  have hread :=
    Decoder.blocksWithin_stored content [] (8 * (stored content).length) _ hfuel #[]
  rw [List.append_nil, Array.empty_append] at hread
  exact ⟨[], hread⟩

end MapDocument.Deflate
