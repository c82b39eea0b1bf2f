import MapDocument.Geometry.Mesh
import MapDocument.Proofs.FloatingPoint.NonNegative
import MapDocument.Proofs.FloatingPoint.Order
/-!
# Geometry — the union of spheres

Two spheres are put into one by stretching the line between their centers, which takes a
direction and so a distance to divide by. Nothing asks whether there is one. What does
instead is the order of the radii: where the distance is zero, be it that the centers are
one or that the squares of what is between them are too small for a number, one of the radii
is at most the other even after the distance was added, and that sphere is the union.
-/

namespace MapDocument.Sphere

variable {s other : Sphere}

/-- The center is somewhere and the radius is a number, be it negative or infinite. -/
structure Placed (s : Sphere) : Prop where
  x : s.center.x.isFinite = true
  y : s.center.y.isFinite = true
  z : s.center.z.isFinite = true
  radius : s.radius.isNaN = false

/-- The distance between the centers of two spheres, as it is computed. -/
def distance (s other : Sphere) : Single := (other.center - s.center).length

/-- The sphere that just touches the far sides of two others, whose centers are apart. -/
def spanning (s other : Sphere) : Sphere where
  center := (s.center + other.center + (other.center - s.center) / s.distance other *
    (other.radius - s.radius)) / (2 : Single)
  radius := (s.radius + other.radius + s.distance other) / 2

/-- The union takes one of two spheres, or spans them both. -/
theorem containing_eq (s other : Sphere) :
    s.containing other =
      if (s.distance other + other.radius).le s.radius then s
      else if (s.distance other + s.radius).le other.radius then other
      else s.spanning other := rfl

/-! ## The distance -/

/-- Infinity is none of the zeros. -/
theorem infinityCode_pos : 0 < FloatFormat.single.infinityCode := by decide

/-- The square of the length of a vector of numbers is a number without a sign. -/
theorem nonNegative_squaredLength {v : Vec3} (hx : v.x.isNaN = false) (hy : v.y.isNaN = false)
    (hz : v.z.isNaN = false) : v.squaredLength.NonNegative := by
  have hsquare {c : Single} (hc : c.isNaN = false) : (c * c).NonNegative :=
    .mul_self infinityCode_pos hc
  exact ((hsquare hx).add (hsquare hy)).add (hsquare hz)

/-- And so is its length. -/
theorem nonNegative_length {v : Vec3} (hx : v.x.isNaN = false) (hy : v.y.isNaN = false)
    (hz : v.z.isNaN = false) : v.length.NonNegative :=
  (nonNegative_squaredLength hx hy hz).sqrt

/-- **The distance of two spheres is a number without a sign**, be it infinite. -/
theorem nonNegative_distance (hs : s.Placed) (hother : other.Placed) :
    (s.distance other).NonNegative :=
  nonNegative_length (FloatingPoint.isNaN_sub hother.x hs.x) (FloatingPoint.isNaN_sub hother.y hs.y)
    (FloatingPoint.isNaN_sub hother.z hs.z)

/-- A sphere is at no distance from itself. -/
theorem distance_self (hs : s.Placed) : s.distance s = .zero := by
  have hsub : s.center - s.center = Vec3.zero := by
    change Vec3.mk (s.center.x - s.center.x) (s.center.y - s.center.y) (s.center.z - s.center.z) = _
    rw [FloatingPoint.sub_self hs.x, FloatingPoint.sub_self hs.y, FloatingPoint.sub_self hs.z]
    rfl
  rw [distance, hsub]
  decide

/-! ## The union -/

/-- A radius that zero was added to compares as it did before. -/
theorem zero_add_le {c d : Single} (hd : d.isNaN = false) :
    (FloatingPoint.zero + d).le c = d.le c := by
  obtain ⟨hnumber, hposition⟩ := FloatingPoint.position_zero_add infinityCode_pos hd
  rw [FloatingPoint.le, FloatingPoint.le, hnumber, hd, hposition]

/-- At no distance the two comparisons are those of the radii. -/
theorem le_of_isZero (hs : s.Placed) (hother : other.Placed)
    (hzero : (s.distance other).isZero = true) :
    (s.distance other + other.radius).le s.radius = other.radius.le s.radius ∧
      (s.distance other + s.radius).le other.radius = s.radius.le other.radius := by
  rw [(nonNegative_distance hs hother).eq_zero hzero]
  exact ⟨zero_add_le hother.radius, zero_add_le hs.radius⟩

/-- **Of two spheres at no distance the union is the one of the greater radius**, and the
first where the radii are equal. -/
theorem containing_of_isZero (hs : s.Placed) (hother : other.Placed)
    (hzero : (s.distance other).isZero = true) :
    s.containing other = if other.radius.le s.radius then s else other := by
  obtain ⟨hfirst, hsecond⟩ := le_of_isZero hs hother hzero
  rw [containing_eq, hfirst, hsecond]
  rcases FloatingPoint.le_total hother.radius hs.radius with hle | hle
  · rw [hle, if_pos rfl, if_pos rfl]
  · rw [hle, if_pos rfl]

/-- **Where neither sphere is found to be the union, there is a distance to divide by.** -/
theorem zero_lt_distance (hs : s.Placed) (hother : other.Placed)
    (h : (s.distance other + other.radius).le s.radius = false)
    (h' : (s.distance other + s.radius).le other.radius = false) :
    FloatingPoint.zero.lt (s.distance other) = true := by
  cases hzero : (s.distance other).isZero with
  | false => exact (nonNegative_distance hs hother).zero_lt hzero
  | true =>
    obtain ⟨hfirst, hsecond⟩ := le_of_isZero hs hother hzero
    rw [hfirst] at h
    rw [hsecond] at h'
    rcases FloatingPoint.le_total hother.radius hs.radius with hle | hle
    · rw [h] at hle
      cases hle
    · rw [h'] at hle
      cases hle

/-- A sphere takes itself in. -/
theorem containing_self (hs : s.Placed) : s.containing s = s := by
  have hzero : (s.distance s).isZero = true := by
    rw [distance_self hs]
    decide
  rw [containing_of_isZero hs hs hzero, ite_self]

/-- And it goes on doing so. -/
theorem foldl_containing_replicate (hs : s.Placed) (n : Nat) :
    (List.replicate n s).foldl containing s = s := by
  induction n with
  | zero => rfl
  | succ n ih => rw [List.replicate_succ, List.foldl_cons, containing_self hs, ih]

/-- So do the spheres of meshes that all have the same. -/
theorem growSphere_eq {meshes : List Mesh} (hs : s.Placed)
    (h : ∀ m ∈ meshes, m.sphere = .ok s) : Mesh.growSphere s meshes = .ok s := by
  induction meshes with
  | nil => rfl
  | cons m rest ih =>
    obtain ⟨hm, hrest⟩ := List.forall_mem_cons.1 h
    rw [Mesh.growSphere, hm]
    change Mesh.growSphere (s.containing s) rest = .ok s
    rw [containing_self hs, ih hrest]

/-- **The union of spheres divides by no distance that is zero, and that of a sphere with
itself is the sphere.** Of spheres that are placed somewhere and have numbers for radii, negative or
infinite ones too, it is the first if that reaches over the second, and otherwise the second
if that reaches over the first. Only if neither does are they spanned, and then the distance
that the line between the centers is divided by is greater than zero. Where the distance is
zero, if only by underflow, it is the one of the greater radius. Copies of a sphere, however
many, come to that sphere, and so do meshes that all have it. -/
theorem containing_spans_apart :
    (∀ s other : Sphere, s.Placed → other.Placed →
      ((s.distance other + other.radius).le s.radius = true → s.containing other = s) ∧
      ((s.distance other + other.radius).le s.radius = false →
        (s.distance other + s.radius).le other.radius = true → s.containing other = other) ∧
      ((s.distance other + other.radius).le s.radius = false →
        (s.distance other + s.radius).le other.radius = false →
        FloatingPoint.zero.lt (s.distance other) = true ∧
          s.containing other = s.spanning other) ∧
      ((s.distance other).isZero = true →
        s.containing other = if other.radius.le s.radius then s else other)) ∧
    ∀ s : Sphere, s.Placed →
      s.containing s = s ∧
      (∀ n, (List.replicate n s).foldl containing s = s) ∧
      ∀ meshes : List Mesh, (∀ m ∈ meshes, m.sphere = .ok s) →
        Mesh.growSphere s meshes = .ok s := by
  refine ⟨fun s other hs hother => ⟨fun hfirst => ?_, fun hfirst hsecond => ?_,
    fun hfirst hsecond => ⟨zero_lt_distance hs hother hfirst hsecond, ?_⟩,
    containing_of_isZero hs hother⟩,
    fun s hs => ⟨containing_self hs, foldl_containing_replicate hs, fun _ => growSphere_eq hs⟩⟩
  · rw [containing_eq, if_pos hfirst]
  · rw [containing_eq, hfirst, if_neg Bool.false_ne_true, if_pos hsecond]
  · rw [containing_eq, hfirst, hsecond, if_neg Bool.false_ne_true, if_neg Bool.false_ne_true]

/-- A sphere around the origin, less than nothing in size. -/
def inverted : Sphere := ⟨Vec3.zero, -2⟩

/-- A point so near to the origin that the square of its distance is zero. -/
def speck : Sphere := ⟨⟨.ofCode false 1, .zero, .zero⟩, FloatingPoint.zero.neg⟩

/-- A sphere without bounds. -/
def boundless : Sphere := ⟨⟨3, 4, 0⟩, .infinity⟩

/-- A point elsewhere. -/
def grain : Sphere := ⟨⟨3, 4, 0⟩, .zero⟩

/-- A mesh that has that sphere. -/
def grainMesh : Mesh := Mesh.ofCorners (List.replicate 3 ⟨⟨3, 4, 0⟩, ⟨0, 0⟩, Vec3.unitZ⟩)

/-- The point near the origin is at no distance from the sphere around it and takes that in,
and is at some from the point elsewhere. The sphere without bounds takes in what is less, as
the first and as the second, and itself. Meshes of one sphere stay within it. -/
theorem containing_spans_apart_speck :
    inverted.center ≠ speck.center ∧
    inverted.containing speck = speck ∧
    FloatingPoint.zero.lt (speck.distance grain) = true ∧
    boundless.containing speck = boundless ∧ inverted.containing boundless = boundless ∧
    (List.replicate 3 boundless).foldl containing boundless = boundless ∧
    Mesh.growSphere grain [grainMesh, grainMesh] = .ok grain := by
  have hinverted : inverted.Placed := ⟨by decide, by decide, by decide, by decide⟩
  have hboundless : boundless.Placed := ⟨by decide, by decide, by decide, by decide⟩
  have hspeck : speck.Placed := ⟨by decide, by decide, by decide, by decide⟩
  have hgrain : grain.Placed := ⟨by decide, by decide, by decide, by decide⟩
  have hfirst : (speck.distance grain + grain.radius).le speck.radius = false := by
    decide +kernel
  have hsecond : (speck.distance grain + speck.radius).le grain.radius = false := by
    decide +kernel
  have hnot : (inverted.distance boundless + boundless.radius).le inverted.radius = false := by
    decide +kernel
  have hmeshes : ∀ m ∈ [grainMesh, grainMesh], m.sphere = .ok grain := by
    simp only [List.forall_mem_cons]
    exact ⟨rfl, rfl, fun m hm => by cases hm⟩
  refine ⟨by decide, ?_, ?_, ?_, ?_, ?_, ?_⟩
  · exact (containing_spans_apart.1 _ _ hinverted hspeck).2.2.2 (by decide +kernel)
  · exact ((containing_spans_apart.1 _ _ hspeck hgrain).2.2.1 hfirst hsecond).1
  · exact (containing_spans_apart.1 _ _ hboundless hspeck).1 (by decide +kernel)
  · exact (containing_spans_apart.1 _ _ hinverted hboundless).2.1 hnot (by decide +kernel)
  · exact (containing_spans_apart.2 _ hboundless).2.1 3
  · exact (containing_spans_apart.2 _ hgrain).2.2 _ hmeshes

end MapDocument.Sphere
