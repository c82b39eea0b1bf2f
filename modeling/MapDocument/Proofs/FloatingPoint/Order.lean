import MapDocument.Proofs.FloatingPoint.Exact
/-!
# Floating point — the lesser and the greater of two

Numbers are compared by their places on the line, and that is the order of
their values. The lesser of two numbers is one of the two, and so is the
greater. Taking them again from the two that were found changes nothing, not
even the sign of a zero.
-/

namespace MapDocument.FloatingPoint

variable {F : FloatFormat} {x y z : FloatingPoint F}

/-! ## The order of the values -/

/-- **One number is at most another if its value is**, the magnitude of infinity being
counted as the one past the greatest. -/
theorem le_iff_signedUnits_le :
    x.le y = true ↔ x.isNaN = false ∧ y.isNaN = false ∧ x.signedUnits ≤ y.signedUnits := by
  have hzero : F.units 0 = 0 := FloatFormat.units_zero
  have hx : F.units x.code ≤ F.units 0 ↔ x.code ≤ 0 := FloatFormat.units_le_units
  have hy : F.units y.code ≤ F.units 0 ↔ y.code ≤ 0 := FloatFormat.units_le_units
  have hle : F.units x.code ≤ F.units y.code ↔ x.code ≤ y.code := FloatFormat.units_le_units
  have hge : F.units y.code ≤ F.units x.code ↔ y.code ≤ x.code := FloatFormat.units_le_units
  have hposition : x.position ≤ y.position ↔ x.signedUnits ≤ y.signedUnits := by
    unfold position signedUnits units
    split <;> split <;> omega
  simp only [le, Bool.and_eq_true, Bool.not_eq_true', decide_eq_true_eq, hposition, and_assoc]

/-- What is at most something, or has something at most itself, is a number. -/
theorem isNaN_of_le (h : x.le y = true) : x.isNaN = false ∧ y.isNaN = false := by
  obtain ⟨hx, hy, -⟩ := le_iff_signedUnits_le.1 h
  exact ⟨hx, hy⟩

theorem le_trans (h : x.le y = true) (h' : y.le z = true) : x.le z = true := by
  rw [le_iff_signedUnits_le] at h h' ⊢
  exact ⟨h.1, h'.2.1, by omega⟩

/-- Of two numbers one is at most the other. -/
theorem le_total (hx : x.isNaN = false) (hy : y.isNaN = false) :
    x.le y = true ∨ y.le x = true := by
  simp only [le, hx, hy, Bool.not_false, Bool.true_and, decide_eq_true_eq]
  omega

/-! ## The lesser and the greater -/

/-- No number is less than one that it is greater than. -/
theorem lt_asymm (h : x.lt y = true) : y.lt x = false := by
  simp only [lt, Bool.and_eq_true, decide_eq_true_eq] at h
  simp only [lt, Bool.and_eq_false_iff, decide_eq_false_iff_not]
  exact .inr (by omega)

theorem min_self : min x x = x := by
  rw [min, ite_self, ite_self]

theorem max_self : max x x = x := by
  rw [max, ite_self, ite_self]

/-- The lesser of two numbers and the greater of them are the two numbers, or
both the same one of them. -/
theorem min_max_cases (x y : FloatingPoint F) :
    (min x y = x ∧ max x y = y ∧ x.lt y = true) ∨
      (min x y = y ∧ max x y = x ∧ y.lt x = true) ∨
      (min x y = max x y ∧ (min x y = x ∨ min x y = y)) := by
  by_cases hnan : y.isNaN = true
  · refine .inr (.inr ⟨?_, .inl ?_⟩)
    · rw [min, max, if_pos hnan, if_pos hnan]
    · rw [min, if_pos hnan]
  · rw [min, max, if_neg hnan, if_neg hnan]
    by_cases hlt : x.lt y = true
    · rw [if_pos hlt, lt_asymm hlt]
      exact .inl ⟨rfl, rfl, hlt⟩
    · rw [if_neg hlt]
      by_cases hgt : y.lt x = true
      · rw [if_pos hgt]
        exact .inr (.inl ⟨rfl, rfl, hgt⟩)
      · rw [if_neg hgt]
        exact .inr (.inr ⟨rfl, .inr rfl⟩)

/-- **The lesser and the greater of two, once found, stay what they are.** -/
theorem min_max_idem (x y : FloatingPoint F) :
    min (min x y) (max x y) = min x y ∧ max (min x y) (max x y) = max x y := by
  rcases min_max_cases x y with ⟨hmin, hmax, hlt⟩ | ⟨hmin, hmax, hlt⟩ | ⟨heq, -⟩
  · rw [hmin, hmax]
    exact ⟨hmin, hmax⟩
  · rw [hmin, hmax]
    -- what is found comes back in reverse, so it matters that `x` is a number
    have hnan : x.isNaN = false := by
      cases hx : x.isNaN with
      | false => rfl
      | true => simp [lt, hx] at hlt
    constructor
    · rw [min, hnan, hlt]
      rfl
    · rw [max, hnan, lt_asymm hlt]
      rfl
  · rw [← heq, min_self, max_self]
    exact ⟨rfl, rfl⟩

/-- The lesser and the greater of two finite numbers are finite. -/
theorem isFinite_min_max (hx : x.isFinite = true) (hy : y.isFinite = true) :
    (min x y).isFinite = true ∧ (max x y).isFinite = true := by
  rcases min_max_cases x y with ⟨hmin, hmax, -⟩ | ⟨hmin, hmax, -⟩ | ⟨heq, hmin | hmin⟩
  · rw [hmin, hmax]
    exact ⟨hx, hy⟩
  · rw [hmin, hmax]
    exact ⟨hy, hx⟩
  · rw [← heq, hmin]
    exact ⟨hx, hx⟩
  · rw [← heq, hmin]
    exact ⟨hy, hy⟩

end MapDocument.FloatingPoint
