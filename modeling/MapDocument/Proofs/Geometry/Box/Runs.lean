import MapDocument.Proofs.FloatingPoint.Order
import MapDocument.Proofs.Geometry.Box
import MapDocument.Proofs.Node.Atomic
import MapDocument.Proofs.Node.Reload
/-!
# Geometry — boxes stay in order

However a box came about, its corners are in order on every axis, or are no numbers
there either of them: it is a box around points (`Reachable.exists_around`), two of them
if it was made from corners or loaded, and more with each step that grows it. That a box
only grows does not even ask for this. Whatever two corners cover they go on covering,
and the point or the box that was taken in is covered too, but for coordinates that are
no numbers.
-/

namespace MapDocument.Aabb

variable {box other : Aabb} {axis : Axis} {x : Single} {p : Vec3}

/-! ## Runs -/

/-- The boxes that come about by any run of the ways to make a box and to change one. -/
inductive Reachable : Aabb → Prop
  | initial : Reachable Record.initial
  /-- By corners, which leave nothing of a box that had others before. -/
  | corners (a b : Vec3) : Reachable (ofCorners a b)
  | points {points : List Vec3} {box : Aabb} (h : ofPoints? points = some box) : Reachable box
  | coverPoint {box : Aabb} (h : Reachable box) (p : Vec3) : Reachable (box.coverPoint p)
  | containing {box other : Aabb} (h : Reachable box) (h' : Reachable other) :
      Reachable (box.containing other)
  | reset {box : Aabb} (h : Reachable box) : Reachable (Node.reset box)
  /-- By a load, be it refused or not. -/
  | load {box : Aabb} (h : Reachable box) (j : Json) : Reachable (Edit.held (Node.load j box))

/-- The box between two corners is around both. -/
theorem Around.corners (a b : Vec3) : (ofCorners a b).Around [a, b] := (point a).join (point b)

/-- A load leaves a box as it was, or makes it anew from two corners. -/
theorem held_load (j : Json) (box : Aabb) :
    Edit.held (Node.load j box) = box ∨ ∃ a b, Edit.held (Node.load j box) = ofCorners a b := by
  refine (Record.atomic Aabb j).held (P := fun b => b = box ∨ ∃ p q, b = ofCorners p q)
    (.inl rfl) fun _ w hw => ?_
  obtain ⟨members, ⟨min, max, ⟨⟩⟩, -, rfl⟩ := Record.load_eq_ok hw
  exact .inr ⟨min, max, rfl⟩

/-- **Whatever a box has gone through, it is around some points.** -/
theorem Reachable.exists_around (h : Reachable box) : ∃ points, box.Around points := by
  induction h with
  | initial => exact ⟨[Vec3.zero], .point Vec3.zero⟩
  | corners a b => exact ⟨[a, b], .corners a b⟩
  | points hpoints => exact ⟨_, around_of_ofPoints? hpoints⟩
  | coverPoint _ p ih =>
    obtain ⟨points, haround⟩ := ih
    exact ⟨points ++ [p], haround.coverPoint p⟩
  | containing _ _ ih ih' =>
    obtain ⟨points, haround⟩ := ih
    obtain ⟨more, haround'⟩ := ih'
    exact ⟨points ++ more, haround.containing haround'⟩
  | reset _ _ => exact ⟨[Vec3.zero], .point Vec3.zero⟩
  | @load box _ j ih =>
    rcases held_load j box with hheld | ⟨a, b, hheld⟩
    · rwa [hheld]
    · rw [hheld]
      exact ⟨[a, b], .corners a b⟩

/-! ## Growth -/

/-- A coordinate lies between the bounds on an axis. -/
def Covers (box : Aabb) (axis : Axis) (x : Single) : Prop :=
  (box.min.on axis).le x = true ∧ x.le (box.max.on axis) = true

/-- Bounds that lie further out cover what those further in do. -/
theorem Covers.mono (h : box.Covers axis x)
    (hmin : (box.min.on axis).isNaN = false →
      (other.min.on axis).le (box.min.on axis) = true)
    (hmax : (box.max.on axis).isNaN = false →
      (box.max.on axis).le (other.max.on axis) = true) : other.Covers axis x :=
  ⟨FloatingPoint.le_trans (hmin (FloatingPoint.isNaN_of_le h.1).1) h.1,
    FloatingPoint.le_trans h.2 (hmax (FloatingPoint.isNaN_of_le h.2).2)⟩

/-- Corners that are put in order cover what they covered. -/
theorem Covers.normalize (h : box.Covers axis x) : box.normalize.Covers axis x := by
  refine h.mono (fun hmin => ?_) (fun hmax => ?_)
  · rw [Aabb.normalize, Vec3.min_on]
    exact FloatingPoint.min_le_of_mem List.mem_cons_self hmin
  · rw [Aabb.normalize, Vec3.max_on]
    exact FloatingPoint.le_max_of_mem (List.mem_cons_of_mem _ List.mem_cons_self) hmax

/-- The lesser and the greater corners of two boxes. -/
def joined (box other : Aabb) : Aabb := ⟨box.min.min other.min, box.max.max other.max⟩

/-- A box is grown by a point as if that were a box. -/
theorem coverPoint_eq (box : Aabb) (p : Vec3) : box.coverPoint p = box.joined ⟨p, p⟩ := rfl

theorem containing_eq (box other : Aabb) :
    box.containing other = (box.joined other).normalize := rfl

/-- What is joined covers what each of the two does. -/
theorem Covers.joined {inner : Aabb} (hinner : inner ∈ [box, other]) (h : inner.Covers axis x) :
    (box.joined other).Covers axis x := by
  have hmins : inner.min.on axis ∈ [box.min.on axis, other.min.on axis] :=
    List.mem_map_of_mem (f := fun b => b.min.on axis) hinner
  have hmaxs : inner.max.on axis ∈ [box.max.on axis, other.max.on axis] :=
    List.mem_map_of_mem (f := fun b => b.max.on axis) hinner
  refine h.mono (fun hmin => ?_) (fun hmax => ?_)
  · rw [Aabb.joined, Vec3.min_on]
    exact FloatingPoint.min_le_of_mem hmins hmin
  · rw [Aabb.joined, Vec3.max_on]
    exact FloatingPoint.le_max_of_mem hmaxs hmax

/-- A point covers those of its coordinates that are numbers. -/
theorem covers_point (hp : (p.on axis).isNaN = false) : Covers ⟨p, p⟩ axis (p.on axis) := by
  have hself : (p.on axis).le (p.on axis) = true := by simp [FloatingPoint.le, hp]
  exact ⟨hself, hself⟩

/-- **A box is never out of order, and only grows.** After any run of steps that make boxes
and change them, loads that are refused among them, the least corner is at most the greatest
on every axis, or neither is a number there. A box that is grown by a point covers on every
axis what it covered before and the coordinate of the point, if that is a number; one that is
grown by another box covers what either of them did. -/
theorem in_order_and_growing :
    (∀ box, Reachable box → ∀ axis,
      (box.min.on axis).le (box.max.on axis) = true ∨
        (box.min.on axis).isNaN = true ∧ (box.max.on axis).isNaN = true) ∧
    (∀ (box : Aabb) (p : Vec3) (axis : Axis),
      (∀ x, box.Covers axis x → (box.coverPoint p).Covers axis x) ∧
      ((p.on axis).isNaN = false → (box.coverPoint p).Covers axis (p.on axis))) ∧
    ∀ (box other : Aabb) (axis : Axis) (x : Single),
      box.Covers axis x ∨ other.Covers axis x → (box.containing other).Covers axis x := by
  refine ⟨fun box h axis => ?_, fun box p axis => ⟨fun x hx => ?_, fun hp => ?_⟩, ?_⟩
  · obtain ⟨points, haround⟩ := h.exists_around
    exact (haround.least axis).bounds (haround.greatest axis)
  · rw [coverPoint_eq]
    exact hx.joined List.mem_cons_self
  · rw [coverPoint_eq]
    exact (covers_point hp).joined (List.mem_cons_of_mem box List.mem_cons_self)
  · rintro box other axis x (hbox | hother)
    · rw [containing_eq]
      exact (hbox.joined List.mem_cons_self).normalize
    · rw [containing_eq]
      exact (hother.joined (List.mem_cons_of_mem box List.mem_cons_self)).normalize

/-- A box that is not known on its first axis and was given upside down on the second. -/
def tilted : Aabb := ofCorners ⟨.nan, 2, -1⟩ ⟨.nan, 1, 3⟩

/-- The box, grown by a point that is not known on the second axis. -/
def tiltedGrown : Aabb := tilted.coverPoint ⟨5, .nan, .infinity⟩

/-- It covers the point on the first axis and on the second what it covered before, is in order
after a load that was refused, and takes in the box that it was. -/
theorem in_order_and_growing_tilted :
    tilted.min.x.isNaN = true ∧
    ((Edit.held (Node.load .null tiltedGrown)).min.y.le
        (Edit.held (Node.load .null tiltedGrown)).max.y = true ∨
      (Edit.held (Node.load .null tiltedGrown)).min.y.isNaN = true ∧
        (Edit.held (Node.load .null tiltedGrown)).max.y.isNaN = true) ∧
    tiltedGrown.Covers .x 5 ∧ tiltedGrown.Covers .y 2 ∧
    (tiltedGrown.containing tilted).Covers .z 3 := by
  refine ⟨by decide, ?_, ?_, ?_, ?_⟩
  · exact in_order_and_growing.1 _ (.load (.coverPoint (.corners _ _) _) .null) .y
  · exact (in_order_and_growing.2.1 tilted ⟨5, .nan, .infinity⟩ .x).2 (by decide)
  · exact (in_order_and_growing.2.1 tilted ⟨5, .nan, .infinity⟩ .y).1 2 ⟨by decide, by decide⟩
  · exact in_order_and_growing.2.2 _ tilted .z 3 (.inr ⟨by decide, by decide⟩)

end MapDocument.Aabb
