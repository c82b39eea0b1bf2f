import MapDocument.FloatingPoint.Basic
/-!
# Floating point — the least and the greatest of many

The lesser of two gives way where it is no number, so taking it again and again
comes to the least of all numbers that there are, in whatever order and groups they
are taken, and to no number only where there is none. The greater of two is the lesser
of them on the line turned round, so all is said once, for a key by which numbers
are compared (`Extreme`).
-/

namespace MapDocument.FloatingPoint

variable {F : FloatFormat} {key : FloatingPoint F → Int} {x y z m n lo hi : FloatingPoint F}
  {xs ys : List (FloatingPoint F)}

/-- Positions on the line turned round. -/
def mirrored (x : FloatingPoint F) : Int := -x.position

/-- The one of two with the lesser key, where both are numbers. -/
def pick (key : FloatingPoint F → Int) (x y : FloatingPoint F) : FloatingPoint F :=
  if y.isNaN then x else if !x.isNaN && key x < key y then x else y

theorem min_eq_pick (x y : FloatingPoint F) : min x y = pick position x y := by
  unfold min pick lt
  cases hy : y.isNaN <;> simp

theorem max_eq_pick (x y : FloatingPoint F) : max x y = pick mirrored x y := by
  unfold max pick lt mirrored
  cases hy : y.isNaN <;> simp

/-- The least of the numbers in a list, by a key, or no number if there is none. -/
inductive Extreme (key : FloatingPoint F → Int) (m : FloatingPoint F)
    (xs : List (FloatingPoint F)) : Prop
  | none (hm : m.isNaN = true) (hxs : ∀ x ∈ xs, x.isNaN = true)
  | number (hm : m.isNaN = false) (attained : ∃ x ∈ xs, x.isNaN = false ∧ key x = key m)
      (bound : ∀ x ∈ xs, x.isNaN = false → key m ≤ key x)

namespace Extreme

/-- One by itself is the least, if it is a number. -/
theorem self (x : FloatingPoint F) : Extreme key x [x] := by
  cases hx : x.isNaN with
  | true => exact .none hx fun y hy => List.mem_singleton.1 hy ▸ hx
  | false =>
    refine .number hx ⟨x, List.mem_singleton_self x, hx, rfl⟩ fun y hy _ => Int.le_of_eq ?_
    rw [List.mem_singleton.1 hy]

/-- A number of the same value will do as well. -/
theorem congr (h : Extreme key m xs) (hm : m.isNaN = false) (hn : n.isNaN = false)
    (heq : key n = key m) : Extreme key n xs := by
  cases h with
  | none hnan _ =>
    rw [hm] at hnan
    cases hnan
  | number _ attained bound =>
    refine .number hn ?_ ?_
    · rwa [heq]
    · rwa [heq]

/-- **The lesser of the least of two lists is the least of both.** -/
theorem append (h : Extreme key m xs) (h' : Extreme key n ys) :
    Extreme key (pick key m n) (xs ++ ys) := by
  cases h with
  | none hm hxs =>
    cases h' with
    | none hn hys =>
      refine .none ?_ fun x hx => (List.mem_append.1 hx).elim (hxs x) (hys x)
      rw [pick, if_pos hn]
      exact hm
    | number hn attained bound =>
      have hpick : pick key m n = n := by simp [pick, hn, hm]
      rw [hpick]
      obtain ⟨y, hy, hnumber, hkey⟩ := attained
      refine .number hn ⟨y, List.mem_append_right xs hy, hnumber, hkey⟩ fun x hx hx' => ?_
      rcases List.mem_append.1 hx with hx | hx
      · rw [hxs x hx] at hx'
        cases hx'
      · exact bound x hx hx'
  | number hm attained bound =>
    cases h' with
    | none hn hys =>
      have hpick : pick key m n = m := if_pos hn
      rw [hpick]
      obtain ⟨y, hy, hnumber, hkey⟩ := attained
      refine .number hm ⟨y, List.mem_append_left ys hy, hnumber, hkey⟩ fun x hx hx' => ?_
      rcases List.mem_append.1 hx with hx | hx
      · exact bound x hx hx'
      · rw [hys x hx] at hx'
        cases hx'
    | number hn attained' bound' =>
      obtain ⟨x, hx, hx', hkeyx⟩ := attained
      obtain ⟨y, hy, hy', hkeyy⟩ := attained'
      have hpick : pick key m n = if key m < key n then m else n := by simp [pick, hn, hm]
      rw [hpick]
      -- the one that is left lies no further out than either list goes
      split
      · refine .number hm ⟨x, List.mem_append_left ys hx, hx', hkeyx⟩ fun z hz hz' => ?_
        rcases List.mem_append.1 hz with hz | hz
        · exact bound z hz hz'
        · have := bound' z hz hz'
          omega
      · refine .number hn ⟨y, List.mem_append_right xs hy, hy', hkeyy⟩ fun z hz hz' => ?_
        rcases List.mem_append.1 hz with hz | hz
        · have := bound z hz hz'
          omega
        · exact bound' z hz hz'

/-- It is no number only where there is none. -/
theorem isNaN_iff (h : Extreme key m xs) : m.isNaN = true ↔ ∀ x ∈ xs, x.isNaN = true := by
  cases h with
  | none hm hxs => exact ⟨fun _ => hxs, fun _ => hm⟩
  | number hm attained bound =>
    obtain ⟨x, hx, hnumber, -⟩ := attained
    refine ⟨fun hnan => ?_, fun hxs => ?_⟩
    · rw [hm] at hnan
      cases hnan
    · rw [hxs x hx] at hnumber
      cases hnumber

/-- So it is a number where there is one, and no greater than that. -/
theorem le_of_mem (h : Extreme key m xs) (hx : x ∈ xs) (hnumber : x.isNaN = false) :
    m.isNaN = false ∧ key m ≤ key x := by
  cases h with
  | none _ hxs =>
    rw [hxs x hx] at hnumber
    cases hnumber
  | number hm _ bound => exact ⟨hm, bound x hx hnumber⟩

/-- And where it is a number, there is that number. -/
theorem exists_mem (h : Extreme key m xs) (hm : m.isNaN = false) :
    ∃ x ∈ xs, x.isNaN = false ∧ key x = key m := by
  cases h with
  | none hnan _ =>
    rw [hm] at hnan
    cases hnan
  | number _ attained _ => exact attained

/-- **The least of the same numbers is the same number**, if they are any. -/
theorem unique (h : Extreme key m xs) (h' : Extreme key n ys) (hmem : ∀ x, x ∈ xs ↔ x ∈ ys) :
    m.isNaN = true ∧ n.isNaN = true ∨ m.isNaN = false ∧ n.isNaN = false ∧ key m = key n := by
  cases hm : m.isNaN with
  | true =>
    have hxs : ∀ x ∈ xs, x.isNaN = true := h.isNaN_iff.1 hm
    exact .inl ⟨rfl, h'.isNaN_iff.2 fun y hy => hxs y ((hmem y).2 hy)⟩
  | false =>
    obtain ⟨x, hx, hx', hkeyx⟩ := h.exists_mem hm
    obtain ⟨hn, hle⟩ := h'.le_of_mem ((hmem x).1 hx) hx'
    obtain ⟨y, hy, hy', hkeyy⟩ := h'.exists_mem hn
    obtain ⟨-, hge⟩ := h.le_of_mem ((hmem y).2 hy) hy'
    exact .inr ⟨rfl, hn, by omega⟩

end Extreme

/-- The lesser of two is the least of them. -/
theorem extreme_min (x y : FloatingPoint F) : Extreme position (min x y) [x, y] := by
  rw [min_eq_pick]
  exact (Extreme.self x).append (.self y)

/-- And the greater of two the greatest. -/
theorem extreme_max (x y : FloatingPoint F) : Extreme mirrored (max x y) [x, y] := by
  rw [max_eq_pick]
  exact (Extreme.self x).append (.self y)

/-- **The greater of two, taken again and again, comes to the greatest of all.** -/
theorem Extreme.foldl_max (h : Extreme mirrored m ys) (xs : List (FloatingPoint F)) :
    Extreme mirrored (xs.foldl max m) (ys ++ xs) := by
  induction xs generalizing m ys with
  | nil => rwa [List.append_nil]
  | cons x xs ih =>
    have hstep : Extreme mirrored (max m x) (ys ++ [x]) := by
      rw [max_eq_pick]
      exact h.append (.self x)
    rw [List.foldl_cons, List.append_cons]
    exact ih hstep

/-- The greater of two is one of them. -/
theorem max_eq_or_eq (x y : FloatingPoint F) : max x y = x ∨ max x y = y := by
  unfold max
  split
  · exact .inl rfl
  split
  · exact .inl rfl
  · exact .inr rfl

/-- So what it comes to is one of all, with the same sign where that is a zero. -/
theorem foldl_max_mem (m : FloatingPoint F) (xs : List (FloatingPoint F)) :
    xs.foldl max m ∈ m :: xs := by
  induction xs generalizing m with
  | nil => exact List.mem_singleton_self m
  | cons x xs ih =>
    rw [List.foldl_cons]
    rcases List.mem_cons.1 (ih (max m x)) with hfirst | hrest
    · rw [hfirst]
      rcases max_eq_or_eq m x with hmax | hmax <;> simp [hmax]
    · exact List.mem_cons_of_mem m (List.mem_cons_of_mem x hrest)

/-- The least of a list is at most each number in it. -/
theorem Extreme.least_le (h : Extreme position m xs) (hx : x ∈ xs) (hnumber : x.isNaN = false) :
    m.le x = true := by
  obtain ⟨hm, hle⟩ := h.le_of_mem hx hnumber
  simp [le, hm, hnumber, hle]

/-- Each number in a list is at most the greatest of it. -/
theorem Extreme.le_greatest (h : Extreme mirrored m xs) (hx : x ∈ xs)
    (hnumber : x.isNaN = false) : x.le m = true := by
  obtain ⟨hm, hle⟩ := h.le_of_mem hx hnumber
  unfold mirrored at hle
  simp [le, hm, hnumber, Int.neg_le_neg_iff.1 hle]

/-- The lesser of two is at most each of them that is a number. -/
theorem min_le_of_mem (hz : z ∈ [x, y]) (hnumber : z.isNaN = false) :
    (min x y).le z = true :=
  (extreme_min x y).least_le hz hnumber

/-- Each of two that is a number is at most the greater of them. -/
theorem le_max_of_mem (hz : z ∈ [x, y]) (hnumber : z.isNaN = false) :
    z.le (max x y) = true :=
  (extreme_max x y).le_greatest hz hnumber

/-- The least number of a list is no greater than the greatest. -/
theorem Extreme.position_le (hlo : Extreme position lo xs) (hhi : Extreme mirrored hi xs)
    (h : lo.isNaN = false) : lo.position ≤ hi.position := by
  obtain ⟨x, hx, hnumber, hkey⟩ := hlo.exists_mem h
  obtain ⟨-, hle⟩ := hhi.le_of_mem hx hnumber
  unfold mirrored at hle
  omega

/-- **The bounds of a list are left as they are when they are put in order**, but
for the sign of a zero. -/
theorem Extreme.ordered (hlo : Extreme position lo xs) (hhi : Extreme mirrored hi xs) :
    Extreme position (min lo hi) xs ∧ Extreme mirrored (max lo hi) xs := by
  have hsame : hi.isNaN = lo.isNaN := Bool.eq_iff_iff.2 (hhi.isNaN_iff.trans hlo.isNaN_iff.symm)
  cases h : lo.isNaN with
  | true =>
    rw [h] at hsame
    rw [min, max, if_pos hsame, if_pos hsame]
    exact ⟨hlo, .none h (hlo.isNaN_iff.1 h)⟩
  | false =>
    rw [h] at hsame
    have hle : lo.position ≤ hi.position := hlo.position_le hhi h
    have hmin : min lo hi = if lo.position < hi.position then lo else hi := by
      simp [min, lt, h, hsame]
    have hmax : max lo hi = hi := by simp [max, lt, h, hsame, Int.not_lt.2 hle]
    rw [hmin, hmax]
    refine ⟨?_, hhi⟩
    split
    · exact hlo
    · exact hlo.congr h hsame (by omega)

end MapDocument.FloatingPoint
