import MapDocument.Deflate.Writer
/-!
# Deflate — tokens put content out again

The tokens of content are single bytes of it, and copies of what stood before.
Whatever places are looked at, a copy is taken from one where the same bytes
were compared and found (`IsCopy`), so that each token puts out what comes next
of the content. That the places are those before the one where it is needed is
kept by each step (`Sighted`).
-/

namespace MapDocument.Deflate

variable {content : Array UInt8} {here : Nat}

/-! ## Copies -/

/-- As many bytes as are counted are the same. -/
theorem sameBytes_spec (content : Array UInt8) (i j limit : Nat) :
    sameBytes content i j limit ≤ limit ∧
      ∀ k < sameBytes content i j limit, content.getD (i + k) 0 = content.getD (j + k) 0 := by
  induction limit generalizing i j with
  | zero => exact ⟨Nat.le_refl 0, nofun⟩
  | succ limit ih =>
    unfold sameBytes
    split
    · rename_i hsame
      obtain ⟨hle, hlater⟩ := ih (i + 1) (j + 1)
      refine ⟨Nat.succ_le_succ hle, ?_⟩
      intro k hk
      cases k with
      | zero => exact hsame
      | succ k =>
        have hnext := hlater k (by omega)
        rwa [Nat.add_right_comm i, Nat.add_right_comm j] at hnext
    · exact ⟨Nat.zero_le _, nofun⟩

/-- A copy, by its length and distance, of bytes of the content before it. -/
structure IsCopy (content : Array UInt8) (here length distance : Nat) : Prop where
  length_le : length ≤ copyGreatest
  ends : here + length ≤ content.size
  distance_pos : 1 ≤ distance
  distance_le : distance ≤ here
  reaches : distance ≤ copyReach
  same : ∀ k < length, content.getD (here - distance + k) 0 = content.getD (here + k) 0

/-- **The longest copy is one**, unless it is too short to be told. -/
theorem isCopy_longestCopy {places : List Nat} (hhere : here ≤ content.size)
    (hplaces : ∀ place ∈ places, place < here)
    (hleast : copyLeast ≤ (longestCopy content here places).1) :
    IsCopy content here (longestCopy content here places).1
      (longestCopy content here places).2 := by
  have hbest : ∀ best : Nat × Nat, best = longestCopy content here places →
      best = (0, 0) ∨ IsCopy content here best.1 best.2 := by
    rintro best rfl
    unfold longestCopy
    refine List.foldlRecOn (motive := fun best => best = (0, 0) ∨ IsCopy content here best.1 best.2)
      places _ (.inl rfl) ?_
    intro best hbest place hplace
    dsimp only
    split
    · rename_i hbetter
      rw [Bool.and_eq_true, decide_eq_true_eq, decide_eq_true_eq] at hbetter
      have hbefore := hplaces place hplace
      obtain ⟨hle, hsame⟩ :=
        sameBytes_spec content place here (min copyGreatest (content.size - here))
      have hback : here - (here - place) = place := by omega
      refine .inr ⟨by omega, by omega, by omega, by omega, by omega, ?_⟩
      rw [hback]
      exact hsame
    · exact hbest
  cases hbest _ rfl with
  | inl hnone =>
    rw [hnone] at hleast
    cases hleast
  | inr hcopy => exact hcopy

namespace Token

/-- A byte put out after the content before it. -/
theorem push_extract (h : here < content.size) :
    (content.extract 0 here).push (content.getD here 0) = content.extract 0 (here + 1) := by
  have hget : content.getD here 0 = content[here] := by
    rw [Array.getD_eq_getD_getElem?, Array.getElem?_eq_getElem h]
    rfl
  rw [hget, Array.push_extract_getElem h, Nat.zero_min]

/-- **A copy puts out what comes next.** -/
theorem copyOn_extract {length distance : Nat} (h : IsCopy content here length distance) :
    copyOn distance length (content.extract 0 here) = content.extract 0 (here + length) := by
  induction length generalizing here with
  | zero => rfl
  | succ length ih =>
    obtain ⟨hlength, hends, hpos, hdistance, hreaches, hsame⟩ := h
    have hsize : (content.extract 0 here).size = here := by
      rw [Array.size_extract]
      omega
    have hback : back (content.extract 0 here) distance = content.getD here 0 := by
      have hfirst := hsame 0 (Nat.succ_pos length)
      rw [Nat.add_zero, Nat.add_zero] at hfirst
      rw [back, hsize, if_pos hdistance, ← hfirst]
      simp only [Array.getD_eq_getD_getElem?, Array.getElem?_extract]
      rw [if_pos (by omega), Nat.zero_add]
    have hnext : IsCopy content (here + 1) length distance := by
      refine ⟨by omega, by omega, hpos, by omega, hreaches, ?_⟩
      intro k hk
      have hlater := hsame (k + 1) (by omega)
      have hsource : here + 1 - distance + k = here - distance + (k + 1) := by omega
      have htarget : here + 1 + k = here + (k + 1) := by omega
      rw [hsource, htarget, hlater]
    rw [copyOn, hback, push_extract (by omega), ih hnext, Nat.add_right_comm, Nat.add_assoc]

/-- A token that has bits of its own: a byte, or a copy that is neither too short nor too
long, from before but not too far back. -/
def Fits : Token → Prop
  | byte _ => True
  | copy length distance => copyLeast ≤ length ∧ length ≤ copyGreatest ∧
      1 ≤ distance ∧ distance ≤ copyReach

end Token

/-! ## The tokens of content -/

/-- Only places before the next one were sighted. -/
def Sighted (here : Nat) (seen : Sightings) : Prop :=
  ∀ key, ∀ place ∈ seen.getD key [], place < here

/-- The places passed are before the one that is reached. -/
theorem Sighted.sight {place : Nat} {seen : Sightings} (h : Sighted place seen) (effort : Nat)
    (content : Array UInt8) (count : Nat) :
    Sighted (place + count) (sight effort content place count seen) := by
  induction count generalizing place seen with
  | zero => exact h
  | succ count ih =>
    have hnext : place + (count + 1) = place + 1 + count := by omega
    rw [hnext]
    refine ih ?_
    intro key p hp
    rw [Std.HashMap.getD_insert] at hp
    split at hp
    · cases List.mem_cons.1 hp with
      | inl hnew => exact hnew ▸ Nat.lt_succ_self _
      | inr hold => exact Nat.lt_succ_of_lt (h _ p (List.mem_of_mem_take hold))
    · exact Nat.lt_succ_of_lt (h key p hp)

/-- The tokens found, in reverse, put out the content before a place. -/
structure Told (content : Array UInt8) (here : Nat) (found : List Token) : Prop where
  here_le : here ≤ content.size
  fits : ∀ token ∈ found, token.Fits
  puts : found.reverse.foldl Token.apply #[] = content.extract 0 here

namespace Told

variable {found : List Token}

/-- One more token puts out what it puts out after the others. -/
theorem puts_cons (h : Told content here found) (token : Token) :
    (token :: found).reverse.foldl Token.apply #[] = token.apply (content.extract 0 here) := by
  rw [List.reverse_cons, List.foldl_append, h.puts]
  rfl

/-- A single byte is told after the others. -/
theorem byte (h : Told content here found) (hmore : here < content.size) :
    Told content (here + 1) (.byte (content.getD here 0) :: found) :=
  ⟨hmore, List.forall_mem_cons.2 ⟨trivial, h.fits⟩,
    (h.puts_cons _).trans (Token.push_extract hmore)⟩

/-- So is a copy that is long enough. -/
theorem copy {length distance : Nat} (h : Told content here found)
    (hcopy : IsCopy content here length distance) (hleast : copyLeast ≤ length) :
    Told content (here + length) (.copy length distance :: found) := by
  have hfits : (Token.copy length distance).Fits :=
    ⟨hleast, hcopy.length_le, hcopy.distance_pos, hcopy.reaches⟩
  exact ⟨hcopy.ends, List.forall_mem_cons.2 ⟨hfits, h.fits⟩,
    (h.puts_cons _).trans (Token.copyOn_extract hcopy)⟩

/-- **All content is told**, when as many tokens are allowed as bytes are left. -/
theorem tokensFrom (h : Told content here found) (effort : Nat) {fuel : Nat} {seen : Sightings}
    (hfuel : content.size ≤ here + fuel) (hseen : Sighted here seen) :
    Told content content.size (tokensFrom effort content fuel here seen found).reverse := by
  have hall {here : Nat} {found : List Token} (h : Told content here found)
      (hend : content.size ≤ here) : Told content content.size found.reverse.reverse := by
    rw [List.reverse_reverse, Nat.le_antisymm hend h.here_le]
    exact h
  induction fuel generalizing here seen found with
  | zero => exact hall h hfuel
  | succ fuel ih =>
    unfold Deflate.tokensFrom
    split
    · rename_i hend
      exact hall h hend
    · rename_i hmore
      have hcopy := isCopy_longestCopy h.here_le (hseen (threeAt content here))
      split
      rename_i length distance hlongest
      rw [hlongest] at hcopy
      split
      · rename_i hleast
        have hlong : 3 ≤ length := hleast
        exact ih (h.copy (hcopy hleast) hleast) (by omega) (hseen.sight effort content length)
      · exact ih (h.byte (by omega)) (by omega) (hseen.sight effort content 1)

end Told

/-- **The tokens of content put it out**, and each of them has bits of its own. -/
theorem tokensOf_spec (effort : Nat) (content : Bytes) :
    (∀ token ∈ tokensOf effort content, token.Fits) ∧
      (tokensOf effort content).foldl Token.apply #[] = content.toArray := by
  have hnothing : Told content.toArray 0 [] := ⟨Nat.zero_le _, nofun, by simp⟩
  have hsighted : Sighted 0 (∅ : Sightings) := by
    intro key place hplace
    rw [Std.HashMap.getD_empty] at hplace
    cases hplace
  have htold := hnothing.tokensFrom effort (Nat.le_add_left _ 0) hsighted
  refine ⟨fun token htoken => htold.fits token (List.mem_reverse.2 htoken), ?_⟩
  have hputs := htold.puts
  rwa [List.reverse_reverse, Array.extract_size] at hputs

end MapDocument.Deflate
