import Mathlib.Algebra.Group.Nat.Defs
import MapDocument.Geometry.Mesh
import MapDocument.Proofs.Node.Leaf
import MapDocument.Proofs.Outcome
/-!
# Geometry — what is written of a derived shape

A shape is written as the numbers of its parts, bit for bit, which all have to
be finite; a soup has its count before them. The numbers of the triangles of a stream
of whole triangles are the stream again.
-/

namespace MapDocument

/-! ## Numbers, bit for bit -/

/-- If anything is written, then these numbers, bit for bit, which are all finite. -/
def Writes (result : Except Error Bytes) (xs : List Single) : Prop :=
  ∀ p, result = .ok p → (∀ x ∈ xs, x.isFinite = true) ∧ p = xs.flatMap Bytes.ofSingle

theorem writes_ofFinite (xs : List Single) : Writes (Bytes.ofFinite xs) xs :=
  fun _ h => Bytes.ofFinite_eq_ok.1 h

theorem writes_nil : Writes (.ok []) [] := by
  intro p h
  cases h
  exact ⟨nofun, rfl⟩

/-- Where an error would be seen from does not matter. -/
theorem Writes.locating {result : Except Error Bytes} {xs : List Single} (h : Writes result xs)
    (step : PathStep) : Writes (Error.locating step result) xs :=
  fun p hp => h p (locating_eq_ok.1 hp)

/-- What is written one after the other is written as the numbers of both. -/
theorem Writes.append {first second : Except Error Bytes} {xs ys : List Single}
    (hfirst : Writes first xs) (hsecond : Writes second ys) :
    Writes (do let p ← first; return p ++ (← second)) (xs ++ ys) := by
  intro r h
  obtain ⟨p, q, hp, hq, rfl⟩ := append_eq_ok.1 h
  obtain ⟨hxs, rfl⟩ := hfirst p hp
  obtain ⟨hys, rfl⟩ := hsecond q hq
  refine ⟨fun x hx => ?_, List.flatMap_append.symm⟩
  rcases List.mem_append.1 hx with hx | hx
  · exact hxs x hx
  · exact hys x hx

theorem Field.writes_nil : Writes (encodeAll [] ()) [] := MapDocument.writes_nil

/-- A field is written before those that follow it. -/
theorem Field.writes_cons {f : Field} {fs : List Field} {x : f.Value} {values : Values fs}
    {xs ys : List Single} (h : Writes (Node.encode x) xs) (hfields : Writes (encodeAll fs values) ys) :
    Writes (encodeAll (f :: fs) (x, values)) (xs ++ ys) :=
  (h.locating (.field f.name)).append hfields

/-- So is an item before those that follow it. -/
theorem Node.writes_items {α : Type} [Node α] {parts : α → List Single}
    (h : ∀ x, Writes (Node.encode x) (parts x)) (index : Nat) (xs : List α) :
    Writes (Node.encodeItems index xs) (xs.flatMap parts) := by
  induction xs generalizing index with
  | nil => exact writes_nil
  | cons x xs ih => exact ((h x).locating (.index index)).append (ih (index + 1))

/-! ## Shapes -/

theorem Vec3.writes (a : Vec3) : Writes (Node.encode a) a.toList := writes_ofFinite a.toList

theorem Sphere.writes (s : Sphere) : Writes (Node.encode s) (s.center.toList ++ [s.radius]) :=
  Field.writes_cons (f := field "center" Vec3.zero) s.center.writes <|
    Field.writes_cons (f := field "radius" (1 : Single)) (writes_ofFinite [s.radius])
      Field.writes_nil

theorem Aabb.writes (box : Aabb) : Writes (Node.encode box) (box.min.toList ++ box.max.toList) := by
  have hfields := Field.writes_cons (f := field "min" Vec3.zero) box.min.writes <|
    Field.writes_cons (f := field "max" Vec3.zero) box.max.writes Field.writes_nil
  rwa [List.append_nil] at hfields

/-- The numbers of a triangle, corner by corner. -/
def Triangle.toList (t : Triangle) : List Single := t.p1.toList ++ (t.p2.toList ++ t.p3.toList)

theorem Triangle.writes (t : Triangle) : Writes (Node.encode t) t.toList := by
  have hfields := Field.writes_cons (f := field "p1" Vec3.zero) t.p1.writes <|
    Field.writes_cons (f := field "p2" Vec3.zero) t.p2.writes <|
    Field.writes_cons (f := field "p3" Vec3.zero) t.p3.writes Field.writes_nil
  rwa [List.append_nil] at hfields

namespace TriangleSoup

/-- The numbers of a soup, triangle by triangle. -/
def toList (soup : TriangleSoup) : List Single := soup.triangles.flatMap Triangle.toList

@[simp] theorem toList_append (s t : TriangleSoup) : (s ++ t).toList = s.toList ++ t.toList :=
  List.flatMap_append

/-- A triangle has nine numbers. -/
theorem length_toList (soup : TriangleSoup) : soup.toList.length = 9 * soup.triangles.length := by
  simp [toList, List.length_flatMap, Triangle.toList, Vec3.toList, List.map_const', Nat.mul_comm]

/-- **A soup is its count, which fits, and then its numbers, bit for bit.** -/
theorem encode_eq_ok {soup : TriangleSoup} {p : Bytes} (h : Node.encode soup = .ok p) :
    soup.triangles.length < 2 ^ 31 ∧ (∀ x ∈ soup.toList, x.isFinite = true) ∧
      p = Bytes.ofInt32 (Int32.ofNat soup.triangles.length) ++
        soup.toList.flatMap Bytes.ofSingle := by
  obtain ⟨q, r, hq, hr, rfl⟩ := append_eq_ok.1 h
  cases hr
  obtain ⟨count, items, hcount, hitems, rfl⟩ := append_eq_ok.1 (locating_eq_ok.1 hq)
  obtain ⟨hfinite, rfl⟩ := Node.writes_items Triangle.writes 0 soup.triangles items hitems
  rw [List.append_nil]
  unfold Bytes.ofLength? at hcount
  split at hcount
  · cases hcount
    exact ⟨by omega, hfinite, rfl⟩
  · cases hcount

end TriangleSoup

/-! ## Streams -/

/-- The triangles of a stream of whole triangles have the numbers of the stream. -/
theorem flatMap_toList_trianglesOf {xs : List Single} (h : xs.length % 9 = 0) :
    (trianglesOf (pointsOf xs)).flatMap Triangle.toList = xs := by
  match xs with
  | [] => rfl
  | a :: b :: c :: d :: e :: f :: g :: i :: j :: rest =>
    have hrest : rest.length % 9 = 0 := by
      simp only [List.length_cons] at h
      omega
    have htail := flatMap_toList_trianglesOf hrest
    simp only [pointsOf, trianglesOf, List.flatMap_cons, htail]
    rfl
  | [_] | [_, _] | [_, _, _] | [_, _, _, _] | [_, _, _, _, _] | [_, _, _, _, _, _]
  | [_, _, _, _, _, _, _] | [_, _, _, _, _, _, _, _] => simp at h

/-- The triangles of a mesh have the numbers of its vertex stream. -/
theorem Mesh.soup_eq_ok {m : Mesh} {soup : TriangleSoup} (h : m.soup = .ok soup) :
    m.vertices.length % 9 = 0 ∧ soup.toList = m.vertices := by
  obtain ⟨-, -, h⟩ := bind_eq_ok.1 h
  unfold TriangleSoup.ofVertices at h
  split at h
  · rename_i hwhole
    cases h
    exact ⟨hwhole, flatMap_toList_trianglesOf hwhole⟩
  · cases h

end MapDocument
