import MapDocument.Artifact
import MapDocument.Proofs.Bytes.Reader
import MapDocument.Proofs.Zlib
/-!
# Artifacts — which bytes are an artifact

A binary map is compressed unless its length does not fit the header, whatever
the level, and comes back from its artifact. The other way round, what is
decompressed says of its bytes what they are: the length, a whole stream that
holds so many bytes, and anything behind it. As no stream begins another, a
different length or a stream that is cut off is always refused.
-/

namespace MapDocument

/-- The four bytes of a length, if it fits. -/
theorem Bytes.ofLength?_eq_ok {n : Nat} {bytes : Bytes} :
    ofLength? n = .ok bytes ↔ n < 0x80000000 ∧ bytes = littleEndian 4 n := by
  unfold ofLength?
  split
  · rename_i h
    have hword : (Int32.ofNat n).toUInt32.toNat = n := by
      show n % 4294967296 = n
      omega
    have hbytes : ofInt32 (Int32.ofNat n) = littleEndian 4 n := by rw [ofInt32, hword]
    rw [hbytes, Except.ok.injEq, eq_comm]
    exact ⟨fun hsame => ⟨h, hsame⟩, fun hsame => hsame.2⟩
  · rename_i h
    constructor
    · intro hrefused
      cases hrefused
    · exact fun hfits => absurd hfits.1 h

/-- A length is read where its four bytes come first. -/
theorem Reader.length_ofBytes_eq_ok {artifact : Bytes} {n : Nat} {r : Reader} :
    length (.ofBytes artifact) = .ok n r ↔
      n < 0x80000000 ∧ ∃ rest, artifact = littleEndian 4 n ++ rest ∧ r = ⟨4, rest⟩ := by
  rw [length_eq_ok]
  constructor
  · rintro ⟨p, hp, htook⟩
    obtain ⟨hfits, rfl⟩ := Bytes.ofLength?_eq_ok.1 hp
    obtain ⟨hrest, hposition⟩ := took_ofBytes_iff.1 htook
    rw [length_littleEndian] at hposition
    obtain ⟨position, rest⟩ := r
    exact ⟨hfits, rest, hrest, congrArg (Reader.mk · rest) hposition⟩
  · rintro ⟨hfits, rest, rfl, rfl⟩
    exact ⟨_, Bytes.ofLength?_eq_ok.2 ⟨hfits, rfl⟩, took_ofBytes_iff.2 ⟨rfl, rfl⟩⟩

namespace Zlib

/-- **No stream begins another**, nor a longer one of its own. -/
theorem IsStream.append_inj {whole whole' content content' rest rest' : Bytes}
    (h : IsStream whole content) (h' : IsStream whole' content')
    (heq : whole ++ rest = whole' ++ rest') : whole = whole' ∧ content = content' := by
  have hread : read (whole ++ rest) = .ok () ⟨[], rest, content.toArray⟩ :=
    read_eq_ok.2 ⟨whole, rest, content, h, rfl, rfl⟩
  have hread' : read (whole ++ rest) = .ok () ⟨[], rest', content'.toArray⟩ :=
    read_eq_ok.2 ⟨whole', rest', content', h', heq, rfl⟩
  rw [hread] at hread'
  cases hread'
  exact ⟨List.append_cancel_right heq, rfl⟩

end Zlib

namespace Artifact

open Zlib (IsStream)

variable {level : UInt32} {artifact binary : Bytes}

/-! ## Compressing -/

/-- A binary map is compressed when its length fits. -/
theorem compress_eq_ok :
    compress level binary = .ok artifact ↔ binary.length < 0x80000000 ∧
      artifact = littleEndian 4 binary.length ++
        Zlib.write (min level greatestLevel).toNat binary := by
  unfold compress
  rw [bind_eq_ok]
  constructor
  · rintro ⟨header, hheader, h⟩
    obtain ⟨hfits, rfl⟩ := Bytes.ofLength?_eq_ok.1 hheader
    cases h
    exact ⟨hfits, rfl⟩
  · rintro ⟨hfits, rfl⟩
    exact ⟨_, Bytes.ofLength?_eq_ok.2 ⟨hfits, rfl⟩, rfl⟩

/-- Any level will do. -/
theorem exists_compress (level : UInt32) (h : binary.length < 0x80000000) :
    ∃ artifact, compress level binary = .ok artifact :=
  ⟨_, compress_eq_ok.2 ⟨h, rfl⟩⟩

/-! ## Decompressing -/

/-- What decompressing comes to behind a header. -/
theorem decompress_of_length {n : Nat} {r : Reader}
    (h : Reader.length (.ofBytes artifact) = .ok n r) :
    decompress artifact =
      let taken (output : Array UInt8) : Except Error Bytes :=
        let held := min output.size (n + 1)
        if held = n then .ok output.toList else .error (Fault.wrongArtifactLength n held)
      match Zlib.read r.rest with
      | .ok _ s => taken s.output
      | .error .corrupt _ => .error Fault.corruptStream
      | .error .exhausted s =>
        if s.output.size ≤ n then .error Fault.incompleteStream else taken s.output := by
  unfold decompress
  rw [h]
  rfl

/-- **What is decompressed is told by its bytes**: the length, a whole stream that holds so
many bytes, and anything behind it. -/
theorem decompress_eq_ok : decompress artifact = .ok binary ↔
    ∃ n stream trailer, n < 0x80000000 ∧ artifact = littleEndian 4 n ++ (stream ++ trailer) ∧
      IsStream stream binary ∧ n = binary.length := by
  constructor
  · intro h
    cases hlength : Reader.length (.ofBytes artifact) with
    | error e r =>
      unfold decompress at h
      rw [hlength] at h
      cases h
    | ok n r =>
      obtain ⟨hfits, rest, rfl, rfl⟩ := Reader.length_ofBytes_eq_ok.1 hlength
      rw [decompress_of_length hlength] at h
      dsimp only at h
      split at h
      · rename_i s hread
        obtain ⟨stream, trailer, content, hstream, rfl, rfl⟩ := Zlib.read_eq_ok.1 hread
        split at h
        · rename_i hheld
          cases h
          have hlength : n = content.length := by
            have hheld : min content.length (n + 1) = n := hheld
            omega
          exact ⟨n, stream, trailer, hfits, rfl, hstream, hlength⟩
        · cases h
      · cases h
      · split at h
        · cases h
        · -- more was put out than declared, so it cannot be as much
          split at h
          · omega
          · cases h
  · rintro ⟨n, stream, trailer, hfits, rfl, hstream, rfl⟩
    have hlength := Reader.length_ofBytes_eq_ok.2 ⟨hfits, stream ++ trailer, rfl, rfl⟩
    have hread := Zlib.read_eq_ok.2 ⟨stream, trailer, binary, hstream, rfl, rfl⟩
    have hheld : min binary.toArray.size (binary.length + 1) = binary.length := by
      rw [List.size_toArray]
      omega
    rw [decompress_of_length hlength]
    dsimp only
    rw [hread]
    dsimp only
    rw [if_pos hheld]

/-- **What was compressed is decompressed.** -/
theorem decompress_of_compress (h : compress level binary = .ok artifact) :
    decompress artifact = .ok binary := by
  obtain ⟨hfits, rfl⟩ := compress_eq_ok.1 h
  have hstream := Zlib.isStream_write (min level greatestLevel).toNat binary
  refine decompress_eq_ok.2 ⟨binary.length, _, [], hfits, ?_, hstream, rfl⟩
  rw [List.append_nil]

/-! ## Damage -/

/-- An artifact that is not decompressed is refused. -/
theorem exists_error_iff :
    (∃ e, decompress artifact = .error e) ↔ ∀ binary, decompress artifact ≠ .ok binary := by
  cases decompress artifact <;> simp

/-- **A different header is always refused**, whatever it says. -/
theorem decompress_of_header {header : Bytes} (h : decompress artifact = .ok binary)
    (hlength : header.length = 4) (hother : header ≠ artifact.take 4) :
    ∃ e, decompress (header ++ artifact.drop 4) = .error e := by
  obtain ⟨n, stream, trailer, -, rfl, hstream, hn⟩ := decompress_eq_ok.1 h
  rw [List.take_left' (length_littleEndian 4 n)] at hother
  rw [List.drop_left' (length_littleEndian 4 n), exists_error_iff]
  intro other hok
  obtain ⟨n', stream', trailer', -, hbytes, hstream', hn'⟩ := decompress_eq_ok.1 hok
  -- the stream is the same, so it holds as many bytes, and the header has to say so
  obtain ⟨hheader, hrest⟩ := List.append_inj hbytes (by rw [hlength, length_littleEndian])
  obtain ⟨-, rfl⟩ := hstream.append_inj hstream' hrest
  exact hother (by rw [hheader, hn, hn'])

/-- **An artifact that is cut off is refused exactly where its stream is not whole.** -/
theorem decompress_take_iff {stream : Bytes} (hfits : binary.length < 0x80000000)
    (hstream : IsStream stream binary) (trailer : Bytes) (count : Nat) :
    (∃ e, decompress ((littleEndian 4 binary.length ++ (stream ++ trailer)).take count) =
      .error e) ↔ count < 4 + stream.length := by
  have hcut {header : Bytes} (hheader : header.length = 4) (more : Nat) :
      (header ++ (stream ++ trailer)).take (4 + (stream.length + more)) =
        header ++ (stream ++ trailer.take more) := by
    rw [← hheader, List.take_length_add_append, List.take_length_add_append]
  constructor
  · intro h
    refine Nat.lt_of_not_le fun hwhole => ?_
    obtain ⟨more, rfl⟩ : ∃ more, count = 4 + (stream.length + more) :=
      ⟨count - (4 + stream.length), by omega⟩
    rw [hcut (length_littleEndian 4 binary.length), exists_error_iff] at h
    exact h binary (decompress_eq_ok.2 ⟨_, stream, _, hfits, rfl, hstream, rfl⟩)
  · intro hshort
    rw [exists_error_iff]
    intro other hok
    obtain ⟨n, stream', trailer', -, hbytes, hstream', -⟩ := decompress_eq_ok.1 hok
    have hlength := List.length_take_le count (littleEndian 4 binary.length ++ (stream ++ trailer))
    have hall := List.take_append_drop count (littleEndian 4 binary.length ++ (stream ++ trailer))
    rw [hbytes] at hall hlength
    -- the stream that was found in the part would have to be the whole one
    have hrest : stream' ++ (trailer' ++
        (littleEndian 4 binary.length ++ (stream ++ trailer)).drop count) = stream ++ trailer := by
      have hsame := List.append_inj_right (by simpa only [List.append_assoc] using hall)
        (by rw [length_littleEndian, length_littleEndian])
      exact hsame
    obtain ⟨rfl, -⟩ := hstream'.append_inj hstream hrest
    simp only [List.length_append, length_littleEndian] at hlength
    omega

/-! ## Framing -/

/-- **An artifact is framed exactly.** Whatever has a length that fits is compressed and comes
back. What is decompressed is a length and a whole stream of so many bytes, with anything
behind it. So a header that is changed is refused, and so is an artifact that is cut off
before its stream ends, which for what was compressed is anywhere. -/
theorem framed :
    (∀ (level : UInt32) (binary : Bytes), binary.length < 0x80000000 →
      ∃ artifact, compress level binary = .ok artifact ∧ decompress artifact = .ok binary) ∧
    (∀ artifact binary : Bytes, decompress artifact = .ok binary ↔
      ∃ n stream trailer, n < 0x80000000 ∧ artifact = littleEndian 4 n ++ (stream ++ trailer) ∧
        IsStream stream binary ∧ n = binary.length) ∧
    (∀ artifact binary header : Bytes, decompress artifact = .ok binary → header.length = 4 →
      header ≠ artifact.take 4 → ∃ e, decompress (header ++ artifact.drop 4) = .error e) ∧
    (∀ binary stream trailer : Bytes, binary.length < 0x80000000 → IsStream stream binary →
      ∀ count, (∃ e, decompress
          ((littleEndian 4 binary.length ++ (stream ++ trailer)).take count) = .error e) ↔
        count < 4 + stream.length) ∧
    ∀ (level : UInt32) (binary artifact : Bytes), compress level binary = .ok artifact →
      ∀ count < artifact.length, ∃ e, decompress (artifact.take count) = .error e := by
  refine ⟨?_, fun _ _ => decompress_eq_ok, fun _ _ _ => decompress_of_header,
    fun _ _ trailer hfits hstream => decompress_take_iff hfits hstream trailer, ?_⟩
  · intro level binary hfits
    obtain ⟨artifact, hcompress⟩ := exists_compress level hfits
    exact ⟨artifact, hcompress, decompress_of_compress hcompress⟩
  · intro level binary artifact hcompress count hcount
    obtain ⟨hfits, rfl⟩ := compress_eq_ok.1 hcompress
    have hstream := Zlib.isStream_write (min level greatestLevel).toNat binary
    have hcut := decompress_take_iff hfits hstream [] count
    rw [List.append_nil] at hcut
    rw [List.length_append, length_littleEndian] at hcount
    exact hcut.2 hcount

/-- So for three bytes: what they are compressed to, and their artifact as it can also be. -/
theorem framed_sevens :
    (∃ artifact, compress 6 [7, 7, 7] = .ok artifact ∧ decompress artifact = .ok [7, 7, 7] ∧
      ∀ count < artifact.length, ∃ e, decompress (artifact.take count) = .error e) ∧
    (∃ e, decompress [2, 0, 0, 0, 0x78, 0x9c, 1, 3, 0, 0xfc, 0xff, 7, 7, 7, 0, 45, 0, 22, 9] =
      .error e) ∧
    ∃ e, decompress [3, 0, 0, 0, 0x78, 0x9c, 1, 3, 0, 0xfc, 0xff, 7, 7, 7, 0, 45, 0] =
      .error e := by
  obtain ⟨artifact, hcompress, hback⟩ := framed.1 6 [7, 7, 7] (by decide)
  have hcut := framed.2.2.2.2 6 [7, 7, 7] artifact hcompress
  have hstream : IsStream [0x78, 0x9c, 1, 3, 0, 0xfc, 0xff, 7, 7, 7, 0, 45, 0, 22] [7, 7, 7] :=
    ⟨0x78, 0x9c, [1, 3, 0, 0xfc, 0xff, 7, 7, 7], rfl, ⟨[], rfl⟩, rfl⟩
  have hheld : decompress
      [3, 0, 0, 0, 0x78, 0x9c, 1, 3, 0, 0xfc, 0xff, 7, 7, 7, 0, 45, 0, 22, 9] = .ok [7, 7, 7] :=
    decompress_eq_ok.2 ⟨3, _, [9], by decide, rfl, hstream, rfl⟩
  have hheader := framed.2.2.1 _ _ [2, 0, 0, 0] hheld rfl (by decide)
  have hshort := (framed.2.2.2.1 _ _ [9] (by decide) hstream 17).2 (by decide)
  exact ⟨⟨artifact, hcompress, hback, hcut⟩, hheader, hshort⟩

end Artifact

end MapDocument
