import MapDocument.Proofs.Geometry.Box
/-!
# Geometry — the box around meshes is tight

A box around points reaches just as far as the points do on every axis, and neither
the order of the meshes and of their points nor which mesh a point belongs to has a
part in it. A coordinate that is no number is not looked at unless there are no
others on its axis.
-/

namespace MapDocument

namespace FloatingPoint

variable {F : FloatFormat} {lo hi m n : FloatingPoint F} {xs ys : List (FloatingPoint F)}

/-- The bounds of an axis are tight around its coordinates: the numbers among them lie
between the bounds and reach both of them, and where there are no numbers, the bounds
are none either. -/
structure Tight (lo hi : FloatingPoint F) (xs : List (FloatingPoint F)) : Prop where
  inside : ∀ x ∈ xs, x.isNaN = false → lo.le x = true ∧ x.le hi = true
  attained : (∃ x ∈ xs, x.isNaN = false) →
    (∃ x ∈ xs, lo.equals x = true) ∧ ∃ x ∈ xs, hi.equals x = true
  none : (∀ x ∈ xs, x.isNaN = true) → lo.isNaN = true ∧ hi.isNaN = true

/-- Of one value, or no numbers either of them. -/
def Alike (x y : FloatingPoint F) : Prop := x.equals y = true ∨ x.isNaN = true ∧ y.isNaN = true

/-- The least and the greatest of a list are its tight bounds. -/
theorem Extreme.tight (hlo : Extreme position lo xs) (hhi : Extreme mirrored hi xs) :
    Tight lo hi xs := by
  refine ⟨?_, ?_, ?_⟩
  · intro x hx hnumber
    exact ⟨hlo.least_le hx hnumber, hhi.le_greatest hx hnumber⟩
  · rintro ⟨x, hx, hnumber⟩
    obtain ⟨hlo', -⟩ := hlo.le_of_mem hx hnumber
    obtain ⟨hhi', -⟩ := hhi.le_of_mem hx hnumber
    obtain ⟨y, hy, hnumbery, hkeyy⟩ := hlo.exists_mem hlo'
    obtain ⟨z, hz, hnumberz, hkeyz⟩ := hhi.exists_mem hhi'
    unfold mirrored at hkeyz
    have hkeyz : hi.position = z.position := by omega
    exact ⟨⟨y, hy, by simp [equals, hlo', hnumbery, hkeyy]⟩,
      z, hz, by simp [equals, hhi', hnumberz, hkeyz]⟩
  · intro hnone
    exact ⟨hlo.isNaN_iff.2 hnone, hhi.isNaN_iff.2 hnone⟩

/-- Two least numbers by a key of the same coordinates are alike. -/
theorem Extreme.alike {key : FloatingPoint F → Int} (h : Extreme key m xs)
    (h' : Extreme key n ys) (hmem : ∀ x, x ∈ xs ↔ x ∈ ys)
    (hkey : key m = key n → m.position = n.position) : Alike m n := by
  rcases h.unique h' hmem with hnan | ⟨hm, hn, heq⟩
  · exact .inr hnan
  · exact .inl (by simp [equals, hm, hn, hkey heq])

end FloatingPoint

namespace Aabb

variable {box other : Aabb} {points more : List Vec3}

/-- The box is tight around points on every axis. -/
def Tight (box : Aabb) (points : List Vec3) : Prop :=
  ∀ axis, FloatingPoint.Tight (box.min.on axis) (box.max.on axis) (points.map (·.on axis))

/-- The two boxes have the same bounds, but for the signs of zeros and for what stands
where there is no number. -/
def Alike (box other : Aabb) : Prop :=
  ∀ axis, FloatingPoint.Alike (box.min.on axis) (other.min.on axis) ∧
    FloatingPoint.Alike (box.max.on axis) (other.max.on axis)

/-- A box around points is tight. -/
theorem Around.tight (h : box.Around points) : box.Tight points :=
  fun axis => (h.least axis).tight (h.greatest axis)

/-- The boxes around the same points are alike. -/
theorem Around.alike (h : box.Around points) (h' : other.Around more)
    (hmem : ∀ p, p ∈ points ↔ p ∈ more) : box.Alike other := by
  intro axis
  have hon (x : Single) : x ∈ points.map (·.on axis) ↔ x ∈ more.map (·.on axis) := by
    simp only [List.mem_map, hmem]
  refine ⟨(h.least axis).alike (h'.least axis) hon id, ?_⟩
  refine (h.greatest axis).alike (h'.greatest axis) hon fun hkey => ?_
  unfold FloatingPoint.mirrored at hkey
  omega

end Aabb

namespace Mesh

/-- **The box around meshes is tight.** There is one unless there are no meshes, or one of
them has no vertices or is not valid, which is an error of geometry. On every axis it
reaches as far as the coordinates of all points do, and any meshes that have the same
points, in whatever order they come and however they are shared out, have the same box. -/
theorem bound_tight (meshes : List Mesh) :
    (meshes ≠ [] → (∀ m ∈ meshes, m.isEmpty = false ∧ m.validate = .ok ()) →
      ∃ box : Aabb, bound false meshes = .ok (.aabb box) ∧
        box.Tight (meshes.flatMap Mesh.points) ∧
        ∀ others other, bound false others = .ok (.aabb other) →
          (∀ p, p ∈ meshes.flatMap Mesh.points ↔ p ∈ others.flatMap Mesh.points) →
          box.Alike other) ∧
      ((∃ e, bound false meshes = .error e) ↔
        meshes = [] ∨ ∃ m ∈ meshes, m.isEmpty = true ∨ m.validate ≠ .ok ()) ∧
      ∀ e, bound false meshes = .error e → e.kind = .geometry := by
  have hfails := failsFor_bound_of_any false meshes
  refine ⟨fun hne hvalid => ?_, ?_, fun e he => (hfails.blamed he).1⟩
  · cases hbound : bound false meshes with
    | error e =>
      -- none of the reasons to fail is there
      rcases (hfails.blamed hbound).2 with hnil | ⟨m, hm, hempty | hinvalid⟩
      · exact absurd hnil hne
      · rw [(hvalid m hm).1] at hempty
        cases hempty
      · exact absurd (hvalid m hm).2 hinvalid
    | ok volume =>
      obtain ⟨box, rfl, haround⟩ := around_of_bound hbound
      refine ⟨box, rfl, haround.tight, fun others other hother hmem => ?_⟩
      obtain ⟨_, ⟨⟩, haround'⟩ := around_of_bound hother
      exact haround.alike haround' hmem
  · rw [hfails.exists_error_iff]
    exact ⟨fun ⟨_, _, h⟩ => h, fun h => ⟨.emptyMesh, rfl, h⟩⟩

/-- A mesh of one face. -/
def face (a b c : Vec3) : Mesh :=
  ⟨a.toList ++ b.toList ++ c.toList, List.replicate 6 0, List.replicate 9 0⟩

/-- Two faces, one of which has a corner without a place on one axis. -/
def smudged : List Mesh :=
  [face ⟨.nan, 0, 0⟩ ⟨1, 2, 0⟩ ⟨3, 0, 1⟩, face ⟨0, 5, 0⟩ ⟨1, 1, 1⟩ ⟨2, 0, 4⟩]

/-- Other faces with the same corners. -/
def rejoined : List Mesh :=
  [face ⟨2, 0, 4⟩ ⟨3, 0, 1⟩ ⟨0, 5, 0⟩, face ⟨1, 2, 0⟩ ⟨.nan, 0, 0⟩ ⟨1, 1, 1⟩]

/-- The box reaches as far as the corners that have a place do, whichever faces they are corners
of; and there is none if one of the meshes is empty. -/
theorem bound_tight_smudged :
    (∃ box other : Aabb, bound false smudged = .ok (.aabb box) ∧
      bound false rejoined = .ok (.aabb other) ∧ box.Alike other ∧
      box.min.x.le 0 = true ∧ (3 : Single).le box.max.x = true ∧
      ∃ x ∈ [.nan, 1, 3, 0, 1, 2], box.max.x.equals x = true) ∧
    ∃ e, bound false (smudged ++ [empty]) = .error e ∧ e.kind = .geometry := by
  have hvalid : ∀ m ∈ smudged ++ rejoined, m.isEmpty = false ∧ m.validate.toOption = some () := by
    decide +kernel
  have hperm : (smudged.flatMap Mesh.points).Perm (rejoined.flatMap Mesh.points) := by
    decide +kernel
  obtain ⟨box, hbox, htight, halike⟩ := (bound_tight smudged).1 (List.cons_ne_nil _ _) fun m hm =>
    (hvalid m (List.mem_append_left _ hm)).imp_right toOption_eq_some.1
  obtain ⟨other, hother, -⟩ := (bound_tight rejoined).1 (List.cons_ne_nil _ _) fun m hm =>
    (hvalid m (List.mem_append_right _ hm)).imp_right toOption_eq_some.1
  have hx : (smudged.flatMap Mesh.points).map (·.on .x) = [.nan, 1, 3, 0, 1, 2] := by
    decide +kernel
  have htight := htight .x
  rw [hx] at htight
  refine ⟨⟨box, other, hbox, hother, ?_, ?_, ?_, ?_⟩, ?_⟩
  · exact halike rejoined other hother fun p => hperm.mem_iff
  · exact (htight.inside 0 (by decide) (by decide)).1
  · exact (htight.inside 3 (by decide) (by decide)).2
  · exact (htight.attained ⟨3, by decide, by decide⟩).2
  · obtain ⟨-, hfails, hkind⟩ := bound_tight (smudged ++ [empty])
    obtain ⟨e, he⟩ := hfails.2 (.inr ⟨empty, by simp, .inl rfl⟩)
    exact ⟨e, he, hkind e he⟩

end Mesh

end MapDocument
