import MapDocument.Proofs.FloatingPoint.Extreme
import MapDocument.Proofs.Geometry.Mesh
/-!
# Geometry — the box around points

The box around meshes is found by a fold inside a fold: over the points of each mesh,
and over the boxes of the meshes, whose corners are put in order after each of them.
All of it comes to the same as taking the least and the greatest of all coordinates
at once (`Around`). So the least corner stays at most the greatest on every axis. The
one exception is an axis on which no coordinate was a number: there neither corner is
one, so a box of finite numbers has no such axis.
-/

namespace MapDocument

namespace FloatingPoint

variable {F : FloatFormat} {lo hi : FloatingPoint F} {xs : List (FloatingPoint F)}

/-- The bounds of an axis: in order, or no numbers either of them. -/
def Ordered (lo hi : FloatingPoint F) : Prop :=
  lo.le hi = true ∨ lo.isNaN = true ∧ hi.isNaN = true

/-- Finite bounds are in order. -/
theorem Ordered.le_of_isFinite (h : Ordered lo hi) (hlo : lo.isFinite = true) :
    lo.le hi = true := by
  refine h.resolve_right fun ⟨hnan, _⟩ => ?_
  simp only [isFinite, isNaN, decide_eq_true_eq] at hlo hnan
  omega

/-- The least and the greatest of the same numbers are in order. -/
theorem Extreme.bounds (hlo : Extreme position lo xs) (hhi : Extreme mirrored hi xs) :
    Ordered lo hi := by
  have hsame := hlo.isNaN_iff.trans hhi.isNaN_iff.symm
  by_cases hnan : lo.isNaN = true
  · exact .inr ⟨hnan, hsame.1 hnan⟩
  · have hnumber := mt hsame.2 hnan
    rw [Bool.not_eq_true] at hnan hnumber
    exact .inl (by simp [le, hnan, hnumber, hlo.position_le hhi hnan])

end FloatingPoint

open FloatingPoint (Extreme position mirrored)

/-- The axes of space. -/
inductive Axis
  | x
  | y
  | z

namespace Vec3

/-- The coordinate on an axis. -/
def on (p : Vec3) : Axis → Single
  | .x => p.x
  | .y => p.y
  | .z => p.z

@[simp] theorem min_on (a b : Vec3) (axis : Axis) :
    (a.min b).on axis = (a.on axis).min (b.on axis) := by
  cases axis <;> rfl

@[simp] theorem max_on (a b : Vec3) (axis : Axis) :
    (a.max b).on axis = (a.on axis).max (b.on axis) := by
  cases axis <;> rfl

end Vec3

namespace Aabb

variable {box other : Aabb} {points more : List Vec3}

/-- The corners are in order on every axis. -/
structure Ordered (box : Aabb) : Prop where
  x : FloatingPoint.Ordered box.min.x box.max.x
  y : FloatingPoint.Ordered box.min.y box.max.y
  z : FloatingPoint.Ordered box.min.z box.max.z

/-- The bounds are the least and the greatest of the coordinates of points. -/
structure Around (box : Aabb) (points : List Vec3) : Prop where
  least : ∀ axis, Extreme position (box.min.on axis) (points.map (·.on axis))
  greatest : ∀ axis, Extreme mirrored (box.max.on axis) (points.map (·.on axis))

namespace Around

/-- The corners of a box are put in order without harm. -/
theorem normalize (h : box.Around points) : box.normalize.Around points := by
  constructor
  · intro axis
    rw [Aabb.normalize, Vec3.min_on]
    exact ((h.least axis).ordered (h.greatest axis)).1
  · intro axis
    rw [Aabb.normalize, Vec3.max_on]
    exact ((h.least axis).ordered (h.greatest axis)).2

/-- A point is a box around itself. -/
theorem point (p : Vec3) : Around ⟨p, p⟩ [p] := ⟨fun _ => .self _, fun _ => .self _⟩

/-- Two boxes make a box around the points of both. -/
theorem join (h : box.Around points) (h' : other.Around more) :
    Around ⟨box.min.min other.min, box.max.max other.max⟩ (points ++ more) := by
  constructor
  · intro axis
    rw [Vec3.min_on, FloatingPoint.min_eq_pick, List.map_append]
    exact (h.least axis).append (h'.least axis)
  · intro axis
    rw [Vec3.max_on, FloatingPoint.max_eq_pick, List.map_append]
    exact (h.greatest axis).append (h'.greatest axis)

/-- A box that is grown by a point is around that too. -/
theorem coverPoint (h : box.Around points) (p : Vec3) :
    (box.coverPoint p).Around (points ++ [p]) :=
  h.join (point p)

/-- And so it is when it is grown by one point after the other. -/
theorem foldl_coverPoint (h : box.Around points) (more : List Vec3) :
    (more.foldl Aabb.coverPoint box).Around (points ++ more) := by
  induction more generalizing box points with
  | nil => rwa [List.append_nil]
  | cons p more ih =>
    have hgrown := ih (h.coverPoint p)
    rwa [List.append_assoc, List.singleton_append] at hgrown

/-- A box that is grown by another one is around the points of both. -/
theorem containing (h : box.Around points) (h' : other.Around more) :
    (box.containing other).Around (points ++ more) :=
  (h.join h').normalize

/-- The corners of a box around points are in order. -/
theorem ordered (h : box.Around points) : box.Ordered :=
  have hbounds (axis : Axis) := (h.least axis).bounds (h.greatest axis)
  ⟨hbounds .x, hbounds .y, hbounds .z⟩

end Around

/-- What is found for points is a box around them. -/
theorem around_of_ofPoints? (h : ofPoints? points = some box) : box.Around points := by
  cases points with
  | nil => cases h
  | cons first rest =>
    cases h
    exact (Around.point first).normalize.foldl_coverPoint rest

end Aabb

namespace Mesh

variable {m : Mesh} {meshes : List Mesh} {shape box : Aabb} {points : List Vec3}
  {volume : BoundingVolume}

/-- The box of a mesh is around its points. -/
theorem around_of_box (h : m.box = .ok box) : box.Around m.points := by
  obtain ⟨-, -, h⟩ := bind_eq_ok.1 h
  cases hpoints : Aabb.ofPoints? m.points with
  | none =>
    rw [hpoints] at h
    cases h
  | some found =>
    rw [hpoints] at h
    cases h
    exact Aabb.around_of_ofPoints? hpoints

/-- Grown by the boxes of meshes, a box is around their points too. -/
theorem around_of_growBox (hshape : shape.Around points) (h : growBox shape meshes = .ok box) :
    box.Around (points ++ meshes.flatMap Mesh.points) := by
  induction meshes generalizing shape points with
  | nil =>
    cases h
    rwa [List.flatMap_nil, List.append_nil]
  | cons m meshes ih =>
    obtain ⟨other, hother, h⟩ := bind_eq_ok.1 h
    have hgrown := ih (hshape.containing (around_of_box hother)) h
    rwa [List.append_assoc, ← List.flatMap_cons] at hgrown

/-- What bounds meshes none of which turns is the box around all their points. -/
theorem around_of_bound (h : bound false meshes = .ok volume) :
    ∃ box : Aabb, volume = .aabb box ∧ box.Around (meshes.flatMap Mesh.points) := by
  cases meshes with
  | nil => cases h
  | cons first rest =>
    obtain ⟨start, hstart, h⟩ := bind_eq_ok.1 h
    obtain ⟨box, hbox, h⟩ := bind_eq_ok.1 h
    cases h
    exact ⟨box, rfl, around_of_growBox (around_of_box hstart) hbox⟩

/-- **Meshes none of which turns are bounded by a box in order.** -/
theorem bound_false_eq_ok (h : bound false meshes = .ok volume) :
    ∃ box : Aabb, volume = .aabb box ∧ box.Ordered := by
  obtain ⟨box, hbox, haround⟩ := around_of_bound h
  exact ⟨box, hbox, haround.ordered⟩

/-- **Meshes one of which turns are bounded by a sphere around the origin.** -/
theorem bound_true_eq_ok (h : bound true meshes = .ok volume) :
    ∃ radius, volume = .sphere ⟨Vec3.zero, radius⟩ := by
  cases meshes with
  | nil => cases h
  | cons first rest =>
    obtain ⟨start, -, h⟩ := bind_eq_ok.1 h
    obtain ⟨sphere, -, h⟩ := bind_eq_ok.1 h
    cases h
    exact ⟨_, rfl⟩

end Mesh

end MapDocument
