import MapDocument.Proofs.FloatingPoint.Extreme
import MapDocument.Proofs.FloatingPoint.Monotone
import MapDocument.Proofs.Geometry.Mesh
import MapDocument.Proofs.Geometry.Union
/-!
# Geometry — the sphere around points

The radius is the root of the greatest square, while a point is judged by the root of its
own. Since roots keep the order, no distance that is a number is greater than the radius,
and one is equal to it. So points are inside without any tolerance, and with it they stay there.
-/

namespace MapDocument

open FloatingPoint (Extreme mirrored isNaN_of_add isNaN_of_mul)

/-- The pattern that failed operations give is no number. -/
theorem Single.isNaN_nan : (FloatingPoint.nan : Single).isNaN = true := by decide

open Single (isNaN_nan)

namespace Vec3

variable {v : Vec3}

/-- The square of a length, if it is a number, is one of numbers, and so it has no sign. -/
theorem nonNegative_squaredLength (h : v.squaredLength.isNaN = false) :
    v.squaredLength.NonNegative := by
  obtain ⟨hxy, hz⟩ := isNaN_of_add isNaN_nan h
  obtain ⟨hx, hy⟩ := isNaN_of_add isNaN_nan hxy
  exact Sphere.nonNegative_squaredLength (isNaN_of_mul isNaN_nan hx).1
    (isNaN_of_mul isNaN_nan hy).1 (isNaN_of_mul isNaN_nan hz).1

/-- A length is a number just where its square is. -/
theorem isNaN_length (v : Vec3) : v.length.isNaN = v.squaredLength.isNaN := by
  cases h : v.squaredLength.isNaN with
  | true => simp [length, FloatingPoint.sqrt, h, isNaN_nan]
  | false => exact (nonNegative_squaredLength h).sqrt.number

end Vec3

namespace Sphere

variable {points : List Vec3} {center p : Vec3} {s : Sphere}

/-! ## The greatest square -/

/-- The greatest square is the greatest of all squares that are numbers, and of zero. -/
theorem extreme_greatestSquare (center : Vec3) (points : List Vec3) :
    Extreme mirrored (greatestSquare center points)
      (.zero :: points.map fun p => (p - center).squaredLength) :=
  (Extreme.self .zero).foldl_max _

/-- It is zero or one of the squares. -/
theorem greatestSquare_cases (center : Vec3) (points : List Vec3) :
    greatestSquare center points = .zero ∨
      ∃ p ∈ points, (p - center).squaredLength = greatestSquare center points := by
  rcases List.mem_cons.1 (FloatingPoint.foldl_max_mem .zero
    (points.map fun p => (p - center).squaredLength)) with hzero | hmem
  · exact .inl hzero
  · obtain ⟨p, hp, heq⟩ := List.mem_map.1 hmem
    exact .inr ⟨p, hp, heq⟩

/-- **It is a number without a sign**, since squares that are none are passed over. -/
theorem nonNegative_greatestSquare (center : Vec3) (points : List Vec3) :
    (greatestSquare center points).NonNegative := by
  have hnumber : (greatestSquare center points).isNaN = false :=
    ((extreme_greatestSquare center points).le_of_mem List.mem_cons_self
      FloatingPoint.nonNegative_zero.number).1
  rcases greatestSquare_cases center points with hzero | ⟨p, -, heq⟩
  · rw [hzero]
    exact FloatingPoint.nonNegative_zero
  · rw [← heq] at hnumber ⊢
    exact Vec3.nonNegative_squaredLength hnumber

/-- A square that is a number is at most the greatest. -/
theorem squaredLength_le (hp : p ∈ points) (h : (p - center).squaredLength.isNaN = false) :
    (p - center).squaredLength.le (greatestSquare center points) = true := by
  have hmem : (p - center).squaredLength ∈ points.map fun p => (p - center).squaredLength :=
    List.mem_map_of_mem hp
  exact (extreme_greatestSquare center points).le_greatest (List.mem_cons_of_mem _ hmem) h

/-- **And where there is such a square, one of them is the greatest**, also if all are zero. -/
theorem exists_squaredLength_eq (hp : p ∈ points)
    (h : (p - center).squaredLength.isNaN = false) :
    ∃ q ∈ points, (q - center).squaredLength = greatestSquare center points := by
  rcases greatestSquare_cases center points with hzero | hattained
  · refine ⟨p, hp, ?_⟩
    have hsquare := Vec3.nonNegative_squaredLength h
    have hle := squaredLength_le hp h
    rw [hzero, hsquare.le_iff FloatingPoint.nonNegative_zero, FloatingPoint.code_zero] at hle
    rw [hzero]
    exact hsquare.eq_zero (decide_eq_true (Nat.le_zero.1 hle))
  · exact hattained

/-- Where there is none it is zero. -/
theorem greatestSquare_eq_zero (h : ∀ p ∈ points, (p - center).squaredLength.isNaN = true) :
    greatestSquare center points = .zero := by
  refine (greatestSquare_cases center points).resolve_right ?_
  rintro ⟨p, hp, heq⟩
  have hnumber := (nonNegative_greatestSquare center points).number
  rw [← heq, h p hp] at hnumber
  cases hnumber

/-! ## The tolerance -/

theorem nonNegative_tolerance : tolerance.NonNegative := ⟨by decide, by decide⟩

/-- **The tolerance makes no radius less**: what lies within the radius lies inside. -/
theorem containsPoint_of_le (hs : s.radius.NonNegative)
    (h : (p - s.center).length.le s.radius = true) : s.containsPoint p = true := by
  have hfactor : (1 + tolerance : Single).NonNegative := ⟨by decide, by decide⟩
  have hfinite : (1 + tolerance : Single).isFinite = true := by decide
  have hone : FloatFormat.single.unitsPerOne ≤ (1 + tolerance : Single).units := by decide +kernel
  have hshare := hs.le_mul hfactor hfinite hone
  have hterm := (hs.mul hfactor hfinite hone).le_add nonNegative_tolerance
  exact FloatingPoint.le_trans h (FloatingPoint.le_trans hshare hterm)

/-! ## The sphere -/

/-- What is known of the sphere around points. -/
theorem eq_of_ofPoints? (h : ofPoints? points = some s) :
    s = ⟨centroid points, (greatestSquare (centroid points) points).sqrt⟩ := by
  unfold ofPoints? at h
  split at h
  · cases h
  · cases h
    rfl

/-- **The sphere around points covers them, to the last bit.** There is one unless there are
no points. Every point at a distance from the center that is a number as it is computed, be
it infinite, is no farther off than the radius, and so it is inside; a distance that is no
number is passed over. As soon as one distance is a number, and so where all are, some point
is just as far off as the radius. Where none is, the radius is zero. -/
theorem ofPoints_covers (points : List Vec3) :
    (ofPoints? points = none ↔ points = []) ∧
    ∀ s, ofPoints? points = some s →
      (∀ p ∈ points, (p - s.center).length.isNaN = false →
        (p - s.center).length.le s.radius = true ∧ s.containsPoint p = true) ∧
      ((∃ p ∈ points, (p - s.center).length.isNaN = false) →
        ∃ p ∈ points, (p - s.center).length = s.radius) ∧
      ((∀ p ∈ points, (p - s.center).length.isNaN = true) → s.radius = .zero) := by
  refine ⟨ofPoints?_eq_none points, fun s hs => ?_⟩
  obtain rfl := eq_of_ofPoints? hs
  have hgreatest := nonNegative_greatestSquare (centroid points) points
  simp only [Vec3.isNaN_length]
  refine ⟨fun p hp hsquare => ?_, ?_, fun hnone => ?_⟩
  · have hle := (Vec3.nonNegative_squaredLength hsquare).sqrt_le_sqrt hgreatest
      (squaredLength_le hp hsquare)
    exact ⟨hle, containsPoint_of_le hgreatest.sqrt hle⟩
  · rintro ⟨p, hp, hsquare⟩
    obtain ⟨q, hq, heq⟩ := exists_squaredLength_eq hp hsquare
    exact ⟨q, hq, congrArg FloatingPoint.sqrt heq⟩
  · rw [greatestSquare_eq_zero hnone]
    decide

/-- A point infinitely far off and one that is not. -/
def runaway : List Vec3 := [⟨.infinity, 0, 0⟩, ⟨1, 0, 0⟩]

/-- Points on both sides of the origin, so near to it that the squares of their distances
are zero. -/
def specks : List Vec3 := [⟨.ofCode true 1, 0, 0⟩, ⟨.ofCode false 1, 0, 0⟩]

/-- A point that is nowhere. -/
def astray : List Vec3 := [⟨.nan, 0, 0⟩]

/-- Where a point is infinitely far off, so is the center: the distance between them is no
number, and that of the other point is infinite, as the radius is. Between the points near the
origin the center is neither of them, and yet one of them, at no distance, is as far off as the
radius. The point that is nowhere has no distance, and its sphere no extent. -/
theorem ofPoints_covers_runaway :
    (∃ s, ofPoints? runaway = some s ∧
      (⟨.infinity, 0, 0⟩ - s.center).length.isNaN = true ∧
      (⟨1, 0, 0⟩ - s.center).length.isNaN = false ∧
      (⟨1, 0, 0⟩ - s.center).length.le s.radius = true ∧ s.containsPoint ⟨1, 0, 0⟩ = true) ∧
    (∃ s, ofPoints? specks = some s ∧ s.center = Vec3.zero ∧
      ∃ p ∈ specks, (p - s.center).length = s.radius) ∧
    ∃ s, ofPoints? astray = some s ∧ (∀ p ∈ astray, (p - s.center).length.isNaN = true) ∧
      s.radius = .zero := by
  refine ⟨⟨_, rfl, by decide +kernel, ?_⟩, ⟨_, rfl, by decide +kernel, ?_⟩, ⟨_, rfl, ?_⟩⟩
  · have hnumber : ((⟨1, 0, 0⟩ : Vec3) - centroid runaway).length.isNaN = false := by
      decide +kernel
    exact ⟨hnumber, ((ofPoints_covers runaway).2 _ rfl).1 ⟨1, 0, 0⟩ (by simp [runaway]) hnumber⟩
  · have hnumber : ((⟨.ofCode true 1, 0, 0⟩ : Vec3) - centroid specks).length.isNaN = false := by
      decide +kernel
    exact ((ofPoints_covers specks).2 _ rfl).2.1 ⟨_, List.mem_cons_self, hnumber⟩
  · have hnone : ∀ p ∈ astray, (p - centroid astray).length.isNaN = true := by
      decide +kernel
    exact ⟨hnone, ((ofPoints_covers astray).2 _ rfl).2.2 hnone⟩

end Sphere

end MapDocument
