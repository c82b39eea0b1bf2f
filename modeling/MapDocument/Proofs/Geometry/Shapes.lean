import MapDocument.Geometry.Collider
import MapDocument.Proofs.Node.Manifest
/-!
# Geometry — what derived shapes fail for

Shapes are derived by arithmetic that may overflow, or run into patterns
that are no numbers and were in a vertex stream. They are written a vector or
a number at a time, and each of these parts has to be finite.
-/

namespace MapDocument

/-- A part that is not finite is to blame. -/
def Fault.Infinite (parts : List (List Single)) (fault : Fault) : Prop :=
  ∃ xs ∈ parts, (∃ x ∈ xs, x.isFinite = false) ∧ fault = .notFinite xs

/-- A vector is written as a whole. -/
theorem Vec3.failsFor (a : Vec3) : FailsFor (Node.encode a) (Fault.Infinite [a.toList]) :=
  (Bytes.failsFor_ofFinite a.toList).congr (by simp [Fault.Infinite])

theorem Single.failsFor (x : Single) : FailsFor (Node.encode x) (Fault.Infinite [[x]]) :=
  (Bytes.failsFor_ofFinite [x]).congr (by simp [Fault.Infinite])

/-! ## Shapes -/

/-- The parts of a sphere. -/
def Sphere.parts (s : Sphere) : List (List Single) := [s.center.toList, [s.radius]]

theorem Sphere.failsFor (s : Sphere) : FailsFor (Node.encode s) (Fault.Infinite s.parts) := by
  have hfields := Field.failsFor_cons (f := field "center" Vec3.zero) s.center.failsFor <|
    Field.failsFor_cons (f := field "radius" (1 : Single)) (Single.failsFor s.radius) <|
    Field.failsFor_nil ()
  exact hfields.congr (by simp [parts, Fault.Infinite])

/-- The parts of a box. -/
def Aabb.parts (box : Aabb) : List (List Single) := [box.min.toList, box.max.toList]

theorem Aabb.failsFor (box : Aabb) : FailsFor (Node.encode box) (Fault.Infinite box.parts) := by
  have hfields := Field.failsFor_cons (f := field "min" Vec3.zero) box.min.failsFor <|
    Field.failsFor_cons (f := field "max" Vec3.zero) box.max.failsFor <|
    Field.failsFor_nil ()
  exact hfields.congr (by simp [parts, Fault.Infinite])

/-- The parts of a triangle. -/
def Triangle.parts (t : Triangle) : List (List Single) := [t.p1.toList, t.p2.toList, t.p3.toList]

theorem Triangle.failsFor (t : Triangle) : FailsFor (Node.encode t) (Fault.Infinite t.parts) := by
  have hfields := Field.failsFor_cons (f := field "p1" Vec3.zero) t.p1.failsFor <|
    Field.failsFor_cons (f := field "p2" Vec3.zero) t.p2.failsFor <|
    Field.failsFor_cons (f := field "p3" Vec3.zero) t.p3.failsFor <|
    Field.failsFor_nil ()
  exact hfields.congr (by simp [parts, Fault.Infinite])

/-- The parts of a soup are those of its triangles. -/
def TriangleSoup.parts (soup : TriangleSoup) : List (List Single) :=
  soup.triangles.flatMap Triangle.parts

theorem TriangleSoup.failsFor (soup : TriangleSoup) :
    FailsFor (Node.encode soup) fun fault =>
      (Manifest.count soup.triangles.length).Blames fault ∨ Fault.Infinite soup.parts fault := by
  have hlist : FailsFor (Node.encode soup.triangles) fun fault =>
      (Manifest.greatestCount < soup.triangles.length ∧
          fault = .tooLong soup.triangles.length) ∨
        ∃ t ∈ soup.triangles, Fault.Infinite t.parts fault :=
    Node.failsFor_list fun t _ => t.failsFor
  have hfields := Field.failsFor_cons (f := field "triangles" ([] : List Triangle)) hlist <|
    Field.failsFor_nil ()
  refine hfields.congr fun fault => ?_
  rw [Manifest.blames_count, Manifest.blames_empty, or_false]
  refine or_congr_right ?_
  simp only [Fault.Infinite, parts, List.mem_flatMap]
  constructor
  · rintro ⟨t, ht, xs, hxs, hfault⟩
    exact ⟨xs, ⟨t, ht, hxs⟩, hfault⟩
  · rintro ⟨xs, ⟨t, ht, hxs⟩, hfault⟩
    exact ⟨t, ht, xs, hxs, hfault⟩

/-! ## Shapes after their codes -/

/-- **The code of a shape never fails**, so a shape after its code fails for
what it fails for by itself. -/
theorem failsFor_encodeTagged {α : Type} [Collider α] {shape : α} {B : Fault → Prop}
    (h : FailsFor (Node.encode shape) B) : FailsFor (encodeTagged shape) B := by
  -- all codes fit in two bytes
  have hcode : ∃ p, Bytes.ofTypeCode (Collider.kind α).code = .ok p := by
    cases Collider.kind α <;> exact isOk_iff.1 (by decide)
  exact ((FailsFor.never hcode).append h).congr (by simp)

/-- The parts of a bounding shape. -/
def BoundingVolume.parts : BoundingVolume → List (List Single)
  | sphere s => s.parts
  | aabb box => box.parts

theorem BoundingVolume.failsFor (shape : BoundingVolume) :
    FailsFor shape.encodeTagged (Fault.Infinite shape.parts) := by
  cases shape with
  | sphere s => exact failsFor_encodeTagged s.failsFor
  | aabb box => exact failsFor_encodeTagged box.failsFor

end MapDocument
