import Mathlib.Algebra.GroupWithZero.Nat
import MapDocument.Proofs.Deflate.Copies
import MapDocument.Proofs.Deflate.Local
/-!
# Deflate — tokens come back from their bits

Content that was packed is put out again. A decoder is seen here as taking bits,
whatever bytes they are in (`Decodes`), so that what is read of a token can be
put together from what is read of its symbols and numbers. How much fuel there is
does not matter, as each token takes a bit.
-/

namespace MapDocument.Deflate

variable {α β : Type}

/-! ## Bits and numbers -/

/-- Bits come back from their number, and zeros behind them. -/
theorem bitsOf_ofBits {count : Nat} {bits : List Bool} (h : bits.length ≤ count) :
    bitsOf count (ofBits bits) = bits ++ List.replicate (count - bits.length) false := by
  induction count generalizing bits with
  | zero =>
    rw [List.eq_nil_of_length_eq_zero (Nat.le_zero.1 h)]
    rfl
  | succ count ih =>
    cases bits with
    | nil =>
      have hnothing : ([] : List Bool).length ≤ count := Nat.zero_le count
      have hzeros : bitsOf count 0 = List.replicate count false := ih hnothing
      rw [bitsOf, List.nil_append, List.length_nil, Nat.sub_zero, List.replicate_succ]
      exact congrArg (false :: ·) hzeros
    | cons b rest =>
      have hb : decide ((b.toNat + 2 * ofBits rest) % 2 = 1) = b := by
        cases b <;> simp
      have hrest : (b.toNat + 2 * ofBits rest) / 2 = ofBits rest := by
        have hle := b.toNat_le
        omega
      rw [ofBits, bitsOf, hb, hrest, ih (Nat.le_of_succ_le_succ h), List.length_cons,
        Nat.add_sub_add_right, List.cons_append]

/-- A number that has room in so many bits comes back from them. -/
theorem ofBits_bitsOf {count n : Nat} (h : n < Nat.pow 2 count) : ofBits (bitsOf count n) = n := by
  induction count generalizing n with
  | zero => exact (Nat.lt_one_iff.1 h).symm
  | succ count ih =>
    have hsucc : Nat.pow 2 (count + 1) = Nat.pow 2 count * 2 := rfl
    have hbit : (decide (n % 2 = 1)).toNat = n % 2 := by
      rcases Nat.mod_two_eq_zero_or_one n with h | h <;> rw [h] <;> rfl
    rw [bitsOf, ofBits, ih (by omega), hbit, Nat.mod_add_div]

theorem ofBits_lt (bits : List Bool) : ofBits bits < Nat.pow 2 bits.length := by
  induction bits with
  | nil => exact Nat.one_pos
  | cons b rest ih =>
    have hsucc : Nat.pow 2 (rest.length + 1) = Nat.pow 2 rest.length * 2 := rfl
    have hle := b.toNat_le
    rw [ofBits, List.length_cons, hsucc]
    omega

/-- The bits of bytes, one byte after the other. -/
def bitsOfBytes (bytes : Bytes) : List Bool := bytes.flatMap fun b => bitsOf 8 b.toNat

theorem length_bitsOfBytes (bytes : Bytes) : (bitsOfBytes bytes).length = 8 * bytes.length := by
  induction bytes with
  | nil => rfl
  | cons b rest ih =>
    have hcons : bitsOfBytes (b :: rest) = bitsOf 8 b.toNat ++ bitsOfBytes rest := rfl
    rw [hcons, List.length_append, length_bitsOf, ih, List.length_cons]
    omega

/-- **Bits come back from the bytes they were packed in**, and zeros up to a whole byte. -/
theorem bitsOfBytes_packBits (bits : List Bool) :
    ∃ count < 8, bitsOfBytes (packBits bits) = bits ++ List.replicate count false := by
  induction bits using packBits.induct with
  | case1 => exact ⟨0, by decide, by rw [packBits]; rfl⟩
  | case2 b rest ih =>
    obtain ⟨count, hcount, hlater⟩ := ih
    have hlength : (b :: rest.take 7).length ≤ 8 := by
      rw [List.length_cons, List.length_take]
      omega
    have hbyte : (UInt8.ofNat (ofBits (b :: rest.take 7))).toNat = ofBits (b :: rest.take 7) := by
      refine Nat.mod_eq_of_lt (Nat.lt_of_lt_of_le (ofBits_lt _) ?_)
      exact Nat.pow_le_pow_right (by decide) hlength
    have hfirst : bitsOfBytes (packBits (b :: rest)) =
        bitsOf 8 (ofBits (b :: rest.take 7)) ++ bitsOfBytes (packBits (rest.drop 7)) := by
      rw [packBits]
      exact congrArg (bitsOf 8 · ++ bitsOfBytes (packBits (rest.drop 7))) hbyte
    rw [hfirst, bitsOf_ofBits hlength, hlater]
    by_cases hmore : 7 < rest.length
    · -- the byte is full, and the zeros are those behind the others
      have hfull : 8 - (b :: rest.take 7).length = 0 := by
        rw [List.length_cons, List.length_take]
        omega
      refine ⟨count, hcount, ?_⟩
      rw [hfull, List.replicate_zero, List.append_nil, List.cons_append, List.cons_append,
        ← List.append_assoc, List.take_append_drop]
    · -- the byte is the last, and it is not followed by any
      have hrest : rest.drop 7 = [] := List.drop_eq_nil_of_le (by omega)
      have hzeros : List.replicate count false = [] := by
        rw [hrest, packBits, List.nil_append] at hlater
        exact hlater.symm
      refine ⟨7 - rest.length, by omega, ?_⟩
      rw [hrest, hzeros, List.append_nil, List.append_nil, List.take_of_length_le (by omega),
        List.length_cons]
      have hcount : 8 - (rest.length + 1) = 7 - rest.length := by omega
      rw [hcount]

/-! ## Decoders of bits -/

/-- The bits that are left. -/
def Stream.bits (s : Stream) : List Bool := s.pending ++ bitsOfBytes s.bytes

/-- A decoder takes the given bits, whatever follows them, answers, and puts nothing out. -/
def Decodes (x : Decoder α) (bits : List Bool) (a : α) : Prop :=
  ∀ s more, s.bits = bits ++ more → ∃ s', x s = .ok a s' ∧ s'.bits = more ∧ s'.output = s.output

namespace Decodes

variable {x : Decoder α} {f : α → Decoder β} {a : α} {b : β} {bits bits' : List Bool}

theorem pure (a : α) : Decodes (Pure.pure a) [] a := fun s _ h => ⟨s, rfl, h, rfl⟩

/-- The bits of a sequence are those of its steps, one after the other. -/
theorem bind (hx : Decodes x bits a) (hf : Decodes (f a) bits' b) :
    Decodes (x >>= f) (bits ++ bits') b := by
  intro s more hbits
  rw [List.append_assoc] at hbits
  obtain ⟨m, hfirst, hleft, hputs⟩ := hx s _ hbits
  obtain ⟨s', hsecond, hleft', hputs'⟩ := hf m more hleft
  exact ⟨s', (bind_of_eq_ok hfirst).trans hsecond, hleft', hputs'.trans hputs⟩

/-- The last step may take none. -/
theorem bind_pure (hx : Decodes x bits a) (g : α → β) : Decodes (do return g (← x)) bits (g a) := by
  have hbind := hx.bind (f := fun a => Pure.pure (g a)) (.pure (g a))
  rwa [List.append_nil] at hbind

theorem bit (b : Bool) : Decodes Decoder.bit [b] b := by
  rintro ⟨pending, bytes, output⟩ more hbits
  cases pending with
  | cons c pending =>
    obtain ⟨rfl, hmore⟩ := List.cons.inj hbits
    exact ⟨_, rfl, hmore, rfl⟩
  | nil =>
    cases bytes with
    | nil => cases hbits
    | cons byte bytes =>
      obtain ⟨rfl, hmore⟩ := List.cons.inj hbits
      exact ⟨_, rfl, hmore, rfl⟩

theorem number (bits : List Bool) : Decodes (Decoder.bits bits.length) bits (ofBits bits) := by
  induction bits with
  | nil => exact .pure 0
  | cons b rest ih =>
    exact (Decodes.bit b).bind (f := fun b => do return b.toNat + 2 * (← Decoder.bits rest.length))
      (ih.bind_pure _)

/-- **A symbol comes back from its bits.** -/
theorem read {code : PrefixCode} {s : Nat} {bits : List Bool} (h : code.bits? s = some bits) :
    Decodes code.read bits s := by
  induction code generalizing bits with
  | unused => cases h
  | symbol t =>
    unfold PrefixCode.bits? at h
    split at h
    · rename_i hsame
      cases h
      exact hsame ▸ .pure s
    · cases h
  | branch zero one ihZero ihOne =>
    unfold PrefixCode.bits? at h
    split at h
    · rename_i rest hzero
      cases h
      exact (Decodes.bit false).bind (f := fun b => if b then one.read else zero.read)
        (ihZero hzero)
    · obtain ⟨rest, hone, rfl⟩ := Option.map_eq_some_iff.1 h
      exact (Decodes.bit true).bind (f := fun b => if b then one.read else zero.read)
        (ihOne hone)

end Decodes

/-! ## Tokens -/

/-- A number is in a span. -/
def Span.Holds (span : Span) (n : Nat) : Prop :=
  span.first ≤ n ∧ n < span.first + Nat.pow 2 span.width

/-- A number comes back from its place in a span. -/
theorem Decodes.inSpan {spans : Array Span} {n : Nat} {span : Span}
    (hspan : spans[(spanOf spans n).1]? = some span) (hholds : span.Holds n) :
    Decodes (Token.inSpan spans (spanOf spans n).1) (spanOf spans n).2 n := by
  have hbits : (spanOf spans n).2 = bitsOf span.width (n - span.first) := by
    have hget : spans.getD (spanOf spans n).1 ⟨0, 0⟩ = span := by
      rw [Array.getD_eq_getD_getElem?, hspan]
      rfl
    rw [← hget]
    rfl
  obtain ⟨hfirst, hlast⟩ := hholds
  have hnumber := Decodes.number (bitsOf span.width (n - span.first))
  rw [length_bitsOf, ofBits_bitsOf (by omega)] at hnumber
  have hall := hnumber.bind_pure fun k => span.first + k
  rw [Nat.add_sub_cancel' hfirst] at hall
  rw [hbits, Token.inSpan, hspan]
  exact hall

theorem first_le_of_mem_spansFrom {first : Nat} {widths : List Nat} {span : Span}
    (h : span ∈ spansFrom first widths) : first ≤ span.first := by
  induction widths generalizing first with
  | nil => cases h
  | cons width rest ih =>
    cases List.mem_cons.1 h with
    | inl hfirst => exact Nat.le_of_eq (congrArg Span.first hfirst).symm
    | inr hlater =>
      have hle := ih hlater
      omega

/-- Of spans one after the other, the last that begins early enough holds a number. -/
theorem spansFrom_holds {first n : Nat} {widths : List Nat} (hfirst : first ≤ n)
    (hlast : n < first + (widths.map (Nat.pow 2)).sum) :
    ∃ k span, ((spansFrom first widths).filter (·.first ≤ n)).length = k + 1 ∧
      (spansFrom first widths)[k]? = some span ∧ span.Holds n := by
  induction widths generalizing first with
  | nil =>
    rw [List.map_nil, List.sum_nil] at hlast
    omega
  | cons width rest ih =>
    rw [List.map_cons, List.sum_cons] at hlast
    have hcount : ((spansFrom first (width :: rest)).filter (·.first ≤ n)).length =
        ((spansFrom (first + Nat.pow 2 width) rest).filter (·.first ≤ n)).length + 1 := by
      have hbegins : decide ((Span.mk first width).first ≤ n) = true := decide_eq_true hfirst
      rw [spansFrom, List.filter_cons, if_pos hbegins, List.length_cons]
    rw [hcount]
    by_cases hhere : n < first + Nat.pow 2 width
    · have hnone : (spansFrom (first + Nat.pow 2 width) rest).filter (·.first ≤ n) = [] := by
        rw [List.filter_eq_nil_iff]
        intro span hspan hle
        have hbeyond := first_le_of_mem_spansFrom hspan
        rw [decide_eq_true_eq] at hle
        omega
      rw [hnone]
      exact ⟨0, ⟨first, width⟩, rfl, rfl, hfirst, hhere⟩
    · obtain ⟨k, span, hlater, hspan, hholds⟩ := ih (Nat.le_of_not_lt hhere) (by omega)
      exact ⟨k + 1, span, congrArg (· + 1) hlater, hspan, hholds⟩

/-- Each distance within reach is in the span that it is written with. -/
theorem Decodes.distance {n : Nat} (hpos : 1 ≤ n) (hreach : n ≤ copyReach) :
    Decodes (Token.inSpan distanceSpans (spanOf distanceSpans n).1) (spanOf distanceSpans n).2 n := by
  have hlast : n < 1 + ([0, 0, 0, 0, 1, 1, 2, 2, 3, 3, 4, 4, 5, 5, 6, 6, 7, 7, 8, 8, 9, 9, 10, 10,
      11, 11, 12, 12, 13, 13].map (Nat.pow 2)).sum := Nat.lt_succ_of_le hreach
  obtain ⟨k, span, hcount, hspan, hholds⟩ := spansFrom_holds hpos hlast
  have hsymbol : (spanOf distanceSpans n).1 = k := congrArg (· - 1) hcount
  refine .inSpan ?_ hholds
  rw [hsymbol, ← hspan, distanceSpans, List.getElem?_toArray]

/-- Each length of a copy is in the span that it is written with. -/
theorem Decodes.length {n : Nat} (hleast : copyLeast ≤ n) (hgreatest : n ≤ copyGreatest) :
    Decodes (Token.inSpan lengthSpans (spanOf lengthSpans n).1) (spanOf lengthSpans n).2 n := by
  have htable : ∀ n ≤ copyGreatest, copyLeast ≤ n →
      ∃ span ∈ lengthSpans[(spanOf lengthSpans n).1]?, span.first ≤ n ∧
        n < span.first + Nat.pow 2 span.width := by
    decide +kernel
  obtain ⟨span, hspan, hholds⟩ := htable n hgreatest hleast
  exact .inSpan hspan hholds

/-! ## Symbols -/

namespace PrefixCode

variable {zero one : PrefixCode} {s : Nat}

/-- A symbol has a bit string if it has one on either side. -/
theorem isSome_bits?_branch : ((branch zero one).bits? s).isSome ↔
    (zero.bits? s).isSome ∨ (one.bits? s).isSome := by
  rw [bits?]
  cases zero.bits? s <;> simp

/-- **Each symbol has its place**, or there was no room for it. -/
theorem isSome_bits?_place (levels depth : Nat) {symbols : List (Nat × Nat)} {n : Nat}
    (h : (n, s) ∈ symbols) :
    ((place levels depth symbols).1.bits? s).isSome ∨ (n, s) ∈ (place levels depth symbols).2 := by
  induction levels generalizing depth symbols with
  | zero =>
    cases symbols with
    | nil => cases h
    | cons first rest => exact .inr h
  | succ levels ih =>
    cases symbols with
    | nil => cases h
    | cons first rest =>
      unfold place
      split
      · cases List.mem_cons.1 h with
        | inl hfirst =>
          rw [← hfirst]
          exact .inl (by simp [bits?])
        | inr hrest => exact .inr hrest
      · dsimp only
        rw [isSome_bits?_branch]
        cases ih (depth + 1) h with
        | inl hzero => exact .inl (.inl hzero)
        | inr hleft =>
          cases ih (depth + 1) hleft with
          | inl hone => exact .inl (.inr hone)
          | inr hnone => exact .inr hnone

/-- **A code has a bit string for each symbol that was given a length.** -/
theorem isSome_bits?_of_ofLengths? {mayBeLone : Bool} {lengths : List Nat} {code : PrefixCode}
    {n : Nat} (h : ofLengths? mayBeLone lengths = some code) (hn : lengths[s]? = some n)
    (hpos : 1 ≤ n) (hlimit : n ≤ lengthLimit) : (code.bits? s).isSome := by
  have hmem : (n, s) ∈ ordered lengths := by
    refine List.mem_flatMap.2 ⟨n - 1, List.mem_range.2 (by omega), List.mem_filter.2 ⟨?_, ?_⟩⟩
    · exact List.mem_zipIdx_iff_getElem?.2 hn
    · exact decide_eq_true (by omega)
  unfold ofLengths? at h
  dsimp only at h
  split at h
  · rename_i hroom
    rw [Bool.and_eq_true, List.isEmpty_iff] at hroom
    cases h
    rw [isSome_bits?_branch]
    cases isSome_bits?_place lengthLimit 1 hmem with
    | inl hzero => exact .inl hzero
    | inr hleft =>
      cases isSome_bits?_place lengthLimit 1 hleft with
      | inl hone => exact .inr hone
      | inr hnone =>
        rw [hroom.1] at hnone
        cases hnone
  · cases h

/-- So has one that is there for certain, if each symbol was given a length. -/
theorem isSome_bits?_getD {lengths : List Nat}
    (h : (ofLengths? false lengths).isSome)
    (hlengths : ∀ n ∈ lengths, 1 ≤ n ∧ n ≤ lengthLimit) (hs : s < lengths.length) :
    (((ofLengths? false lengths).getD .unused).bits? s).isSome := by
  obtain ⟨code, hcode⟩ := Option.isSome_iff_exists.1 h
  obtain ⟨hpos, hlimit⟩ := hlengths _ (List.getElem_mem hs)
  rw [hcode]
  exact isSome_bits?_of_ofLengths? hcode (List.getElem?_eq_getElem hs) hpos hlimit

end PrefixCode

/-- A symbol comes back from its bits in a table of all. -/
theorem Decodes.table {code : PrefixCode} {s count : Nat} (hs : s < count)
    (h : (code.bits? s).isSome) :
    Decodes code.read
      (((Array.range count).map fun s => (code.bits? s).getD []).getD s []) s := by
  obtain ⟨bits, hbits⟩ := Option.isSome_iff_exists.1 h
  refine .read ?_
  simp [Array.getD_eq_getD_getElem?, hs, hbits]

/-- Each symbol of the fixed codes has its bits, of the main one and of that of distances. -/
theorem Decodes.mainSymbol {s : Nat} (h : s < 288) :
    Decodes BlockCodes.fixed.main.read (fixedMainBits.getD s []) s := by
  refine .table h ?_
  dsimp only [BlockCodes.fixed]
  refine PrefixCode.isSome_bits?_getD ?_ ?_ ?_
  · decide +kernel
  · intro n hn
    simp only [List.mem_append, List.mem_replicate] at hn
    unfold PrefixCode.lengthLimit
    omega
  · rw [List.length_append, List.length_append, List.length_append, List.length_replicate,
      List.length_replicate, List.length_replicate, List.length_replicate]
    exact h

theorem Decodes.distanceSymbol {s : Nat} (h : s < 32) :
    Decodes BlockCodes.fixed.distance.read (fixedDistanceBits.getD s []) s := by
  refine .table h ?_
  dsimp only [BlockCodes.fixed]
  refine PrefixCode.isSome_bits?_getD ?_ ?_ ?_
  · decide +kernel
  · intro n hn
    rw [List.mem_replicate] at hn
    unfold PrefixCode.lengthLimit
    omega
  · rw [List.length_replicate]
    exact h

theorem spanOf_lt {spans : Array Span} (h : 0 < spans.size) (n : Nat) :
    (spanOf spans n).1 < spans.size := by
  have hle : (spans.toList.filter (·.first ≤ n)).length ≤ spans.size := List.length_filter_le _ _
  have hsymbol : (spanOf spans n).1 = (spans.toList.filter (·.first ≤ n)).length - 1 := rfl
  omega

/-- **A token comes back from its bits.** -/
theorem Decodes.token {token : Token} (h : token.Fits) :
    Decodes (Token.read? .fixed) token.bits (some token) := by
  unfold Token.read?
  cases token with
  | byte b =>
    have hsymbol : b.toNat < endSymbol := b.toNat_lt
    have hbits : (Token.byte b).bits = fixedMainBits.getD b.toNat [] ++ [] :=
      (List.append_nil _).symm
    rw [hbits]
    refine .bind (.mainSymbol (Nat.lt_trans hsymbol (by decide))) ?_
    rw [if_pos hsymbol, UInt8.ofNat_toNat]
    exact .pure _
  | copy length distance =>
    obtain ⟨hleast, hgreatest, hpos, hreach⟩ := h
    have hlength : (spanOf lengthSpans length).1 < 29 := spanOf_lt (by decide) length
    have hdistance : (spanOf distanceSpans distance).1 < 30 := spanOf_lt (by decide) distance
    have hbits : (Token.copy length distance).bits =
        fixedMainBits.getD (firstLengthSymbol + (spanOf lengthSpans length).1) [] ++
          ((spanOf lengthSpans length).2 ++
            (fixedDistanceBits.getD (spanOf distanceSpans distance).1 [] ++
              (spanOf distanceSpans distance).2)) := rfl
    have hsymbol : firstLengthSymbol = endSymbol + 1 := rfl
    rw [hbits]
    refine .bind (.mainSymbol (by unfold firstLengthSymbol; omega)) ?_
    rw [if_neg (by omega), if_neg (by omega), Nat.add_sub_cancel_left]
    refine .bind (.length hleast hgreatest) (.bind (.distanceSymbol (by omega)) ?_)
    exact (Decodes.distance hpos hreach).bind_pure _

/-- **Tokens come back from their bits and are applied**, up to the end of the block. -/
theorem tokens_of_bits {list : List Token} (h : ∀ token ∈ list, token.Fits) {s : Stream}
    {more : List Bool}
    (hbits : s.bits = list.flatMap Token.bits ++ (fixedMainBits.getD endSymbol [] ++ more)) :
    ∃ s', Decoder.tokens .fixed (list.length + 1) s = .ok () s' ∧ s'.bits = more ∧
      s'.output = list.foldl Token.apply s.output := by
  induction list generalizing s with
  | nil =>
    have hend : Decodes (Token.read? .fixed) (fixedMainBits.getD endSymbol [] ++ []) none := by
      refine .bind (.mainSymbol (by decide)) ?_
      exact .pure none
    rw [List.append_nil] at hend
    rw [List.flatMap_nil, List.nil_append] at hbits
    obtain ⟨s', hread, hmore, houtput⟩ := hend s more hbits
    refine ⟨s', ?_, hmore, houtput⟩
    rw [Decoder.tokens]
    exact bind_of_eq_ok hread
  | cons token rest ih =>
    rw [List.flatMap_cons, List.append_assoc] at hbits
    obtain ⟨m, hread, hleft, houtput⟩ := Decodes.token (h token List.mem_cons_self) s _ hbits
    have hlater : ({ m with output := token.apply m.output } : Stream).bits =
        rest.flatMap Token.bits ++ (fixedMainBits.getD endSymbol [] ++ more) := hleft
    obtain ⟨s', htokens, hmore, houtput'⟩ :=
      ih (fun later hmem => h later (List.mem_cons_of_mem token hmem)) hlater
    refine ⟨s', ?_, hmore, ?_⟩
    · rw [Decoder.tokens]
      exact (bind_of_eq_ok hread).trans htokens
    · rw [houtput', List.foldl_cons, ← houtput]

/-! ## All of it -/

/-- **Content that was packed is put out again**, whatever the effort, and nothing is left over. -/
theorem isBlocks_packed (effort : Nat) (content : Bytes) :
    IsBlocks (packed effort content) content := by
  obtain ⟨hfits, hputs⟩ := tokensOf_spec effort content
  obtain ⟨count, hcount, hbits⟩ := bitsOfBytes_packBits (true :: true :: false ::
    ((tokensOf effort content).flatMap Token.bits ++ fixedMainBits.getD endSymbol []))
  have hstart : (Stream.ofBytes (packed effort content)).bits = [true] ++ ([true, false] ++
      ((tokensOf effort content).flatMap Token.bits ++
        (fixedMainBits.getD endSymbol [] ++ List.replicate count false))) :=
    hbits.trans (by simp)
  -- the mark of the last block, the sort of block, and the tokens
  obtain ⟨m, hlast, hleft, houtput⟩ := Decodes.bit true _ _ hstart
  obtain ⟨m', hsort, hleft', houtput'⟩ := Decodes.number [true, false] m _ hleft
  obtain ⟨s', htokens, hzeros, houtput''⟩ := tokens_of_bits hfits hleft'
  rw [houtput', houtput] at houtput''
  have hblock : Decoder.block ((tokensOf effort content).length + 1) (.ofBytes (packed effort content)) =
      .ok true s' :=
    (bind_of_eq_ok hlast).trans ((bind_of_eq_ok hsort).trans (bind_of_eq_ok htokens))
  have hblocks : Decoder.blocksWithin ((tokensOf effort content).length + 1) 1
      (.ofBytes (packed effort content)) = .ok () s' := bind_of_eq_ok hblock
  -- fewer than eight zeros are no byte
  have hnone : s'.bytes = [] := by
    have hlength := congrArg List.length hzeros
    rw [Stream.bits, List.length_append, length_bitsOfBytes, List.length_replicate] at hlength
    exact List.eq_nil_of_length_eq_zero (by omega)
  obtain ⟨used, hused, hrun⟩ := Decoder.exists_blocks_append hblocks
  have hcontent : s'.output = content.toArray := houtput''.trans hputs
  have hread := hrun []
  rw [List.append_nil] at hread
  rw [hnone, List.append_nil] at hused
  exact ⟨s'.pending, by rw [hused, hread, hcontent]⟩

end MapDocument.Deflate
