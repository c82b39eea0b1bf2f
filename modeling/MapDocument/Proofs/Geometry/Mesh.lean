import MapDocument.Geometry.Mesh
import MapDocument.Proofs.Faults
/-!
# Geometry — what meshes can be bounded

Meshes that are whole, that is, whose streams hold whole triangles and run
side by side, can be bounded and taken apart into triangles unless one of them
has no vertices. Meshes made corner by corner are whole when their corners
come in threes.
-/

namespace MapDocument

/-- A point takes three numbers. -/
theorem pointsOf_eq_nil {xs : List Single} (h : xs.length % 9 = 0) :
    pointsOf xs = [] ↔ xs = [] := by
  match xs with
  | [] => exact ⟨fun _ => rfl, fun _ => rfl⟩
  | [_] => simp at h
  | [_, _] => simp at h
  | _ :: _ :: _ :: _ => exact ⟨nofun, nofun⟩

/-- There is a box around any points, if there are some. -/
theorem Aabb.ofPoints?_eq_none (points : List Vec3) :
    Aabb.ofPoints? points = none ↔ points = [] := by
  cases points with
  | nil => exact ⟨fun _ => rfl, fun _ => rfl⟩
  | cons p rest => exact ⟨nofun, nofun⟩

/-- And so there is a sphere. -/
theorem Sphere.ofPoints?_eq_none (points : List Vec3) :
    Sphere.ofPoints? points = none ↔ points = [] := by
  cases points with
  | nil => exact ⟨fun _ => rfl, fun _ => rfl⟩
  | cons p rest => exact ⟨nofun, nofun⟩

namespace Mesh

variable {m : Mesh} {meshes : List Mesh}

/-- The streams hold whole triangles and agree on the number of corners. -/
def Whole (m : Mesh) : Prop :=
  m.vertices.length % 9 = 0 ∧ m.texcoords.length = m.vertexCount * 2 ∧
    m.normals.length = m.vertices.length

/-- A mesh is refused for the first stream that is out of step. -/
theorem failsFor_validate (m : Mesh) :
    FailsFor m.validate fun fault =>
      m.vertices.length % 9 ≠ 0 ∧ fault = .vertexCount m.vertices.length ∨
      ¬ m.vertices.length % 9 ≠ 0 ∧
        (m.texcoords.length ≠ m.vertexCount * 2 ∧
            fault = .texcoordCount m.texcoords.length m.vertexCount ∨
          ¬ m.texcoords.length ≠ m.vertexCount * 2 ∧
            (m.normals.length ≠ m.vertices.length ∧
                fault = .normalCount m.normals.length m.vertices.length ∨
              ¬ m.normals.length ≠ m.vertices.length ∧ False)) :=
  .guarded fun _ => .guarded fun _ => .guarded fun _ => .never ⟨(), rfl⟩

/-- Whole meshes are the ones that are found to be valid. -/
theorem validate_eq_ok : m.validate = .ok () ↔ m.Whole := by
  constructor
  · intro h
    unfold validate at h
    split at h
    · cases h
    · split at h
      · cases h
      · split at h
        · cases h
        · exact ⟨by omega, by omega, by omega⟩
  · rintro ⟨hvertices, htexcoords, hnormals⟩
    rw [validate, if_neg (by omega), if_neg (by omega), if_neg (by omega)]

/-! ## Corners -/

section Corners

variable {corners : List MeshVertex}

theorem length_vertices_ofCorners : (ofCorners corners).vertices.length = 3 * corners.length := by
  simp [ofCorners, Vec3.toList, List.length_flatMap, List.map_const', Nat.mul_comm]

theorem length_texcoords_ofCorners : (ofCorners corners).texcoords.length = 2 * corners.length := by
  simp [ofCorners, Vec2.toList, List.length_flatMap, List.map_const', Nat.mul_comm]

theorem length_normals_ofCorners : (ofCorners corners).normals.length = 3 * corners.length := by
  simp [ofCorners, Vec3.toList, List.length_flatMap, List.map_const', Nat.mul_comm]

/-- **Corners that come in threes make a whole mesh.** -/
theorem whole_ofCorners (h : corners.length % 3 = 0) : (ofCorners corners).Whole := by
  rw [Whole, vertexCount, length_vertices_ofCorners, length_texcoords_ofCorners,
    length_normals_ofCorners]
  omega

/-- Where there is a corner, there is a vertex. -/
theorem vertices_ofCorners_ne_nil (h : 0 < corners.length) : (ofCorners corners).vertices ≠ [] := by
  intro hnil
  have hlength : (ofCorners corners).vertices.length = 3 * corners.length :=
    length_vertices_ofCorners
  rw [hnil, List.length_nil] at hlength
  omega

end Corners

/-! ## Bounds -/

/-- Bounding fails where there is nothing to bound. -/
theorem failsFor_bounded {α : Type} {shape? : Option α} :
    FailsFor (bounded shape?) fun fault => shape? = none ∧ fault = .emptyMesh := by
  cases shape? with
  | some shape => exact (FailsFor.never ⟨shape, rfl⟩).congr (by simp)
  | none =>
    constructor
    · intro e he
      cases he
      exact ⟨rfl, rfl⟩
    · exact fun _ => ⟨_, rfl⟩

/-- A shape that can be fit around any points can be fit around a whole mesh
unless it has no vertices. -/
theorem failsFor_fit {α : Type} {fit : List Vec3 → Option α}
    (hfit : ∀ points, fit points = none ↔ points = []) (h : m.Whole) :
    FailsFor (do m.validate; bounded (fit m.points)) fun fault =>
      m.vertices = [] ∧ fault = .emptyMesh := by
  rw [validate_eq_ok.2 h]
  refine failsFor_bounded.congr fun fault => and_congr_left' ?_
  rw [hfit, points, pointsOf_eq_nil h.1]

/-- The faults of a validation are about geometry. -/
theorem kind_of_validate {e : Error} (h : m.validate = .error e) : e.kind = .geometry := by
  rcases (failsFor_validate m).blamed h with ⟨-, hf⟩ | ⟨-, ⟨-, hf⟩ | ⟨-, ⟨-, hf⟩ | ⟨-, hf⟩⟩⟩
  · exact congrArg Fault.kind hf
  · exact congrArg Fault.kind hf
  · exact congrArg Fault.kind hf
  · exact hf.elim

/-- No shape can be fit around a mesh that has no vertices or is not valid, and
that is an error of geometry. -/
theorem failsFor_fit_of_any {α : Type} {fit : List Vec3 → Option α}
    (hfit : ∀ points, fit points = none ↔ points = []) (m : Mesh) :
    FailsFor (do m.validate; bounded (fit m.points)) fun fault =>
      fault.kind = .geometry ∧ (m.isEmpty = true ∨ m.validate ≠ .ok ()) := by
  cases hvalid : m.validate with
  | error e =>
    constructor
    · intro e' he'
      cases he'
      exact ⟨kind_of_validate hvalid, .inr nofun⟩
    · exact fun _ => ⟨e, rfl⟩
  | ok u =>
    have hfits := failsFor_fit hfit (validate_eq_ok.1 hvalid)
    rw [hvalid] at hfits
    constructor
    · intro e he
      obtain ⟨hnil, hfault⟩ := hfits.blamed he
      exact ⟨congrArg Fault.kind hfault, .inl (List.isEmpty_iff.2 hnil)⟩
    · rintro fault ⟨-, hempty | hvalid'⟩
      · exact hfits.fails ⟨List.isEmpty_iff.1 hempty, rfl⟩
      · exact absurd rfl hvalid'

theorem failsFor_box (h : m.Whole) :
    FailsFor m.box fun fault => m.vertices = [] ∧ fault = .emptyMesh :=
  failsFor_fit Aabb.ofPoints?_eq_none h

theorem failsFor_sphere (h : m.Whole) :
    FailsFor m.sphere fun fault => m.vertices = [] ∧ fault = .emptyMesh :=
  failsFor_fit Sphere.ofPoints?_eq_none h

/-- A shape that is grown by those of meshes, one after the other, fails where one of
them does. -/
theorem failsFor_grow {α : Type} {shapeOf : Mesh → Except Error α} {containing : α → α → α}
    {grow : α → List Mesh → Except Error α} (hnil : ∀ shape, grow shape [] = .ok shape)
    (hcons : ∀ shape m rest,
      grow shape (m :: rest) = shapeOf m >>= fun other => grow (containing shape other) rest)
    {blame : Mesh → Fault → Prop} (hshape : ∀ m ∈ meshes, FailsFor (shapeOf m) (blame m))
    (shape : α) : FailsFor (grow shape meshes) fun fault => ∃ m ∈ meshes, blame m fault := by
  induction meshes generalizing shape with
  | nil => exact (FailsFor.never ⟨shape, hnil shape⟩).congr (by simp)
  | cons m meshes ih =>
    have hhead := hshape m List.mem_cons_self
    have hrest (other : α) :=
      ih (fun n hn => hshape n (List.mem_cons_of_mem m hn)) (containing shape other)
    rw [hcons]
    exact (hhead.bind fun other _ => hrest other).congr (by simp)

theorem failsFor_growBox (shape : Aabb) {blame : Mesh → Fault → Prop}
    (h : ∀ m ∈ meshes, FailsFor m.box (blame m)) :
    FailsFor (growBox shape meshes) fun fault => ∃ m ∈ meshes, blame m fault :=
  failsFor_grow (fun _ => rfl) (fun _ _ _ => rfl) h shape

theorem failsFor_growSphere (shape : Sphere) {blame : Mesh → Fault → Prop}
    (h : ∀ m ∈ meshes, FailsFor m.sphere (blame m)) :
    FailsFor (growSphere shape meshes) fun fault => ∃ m ∈ meshes, blame m fault :=
  failsFor_grow (fun _ => rfl) (fun _ _ _ => rfl) h shape

/-- Meshes are bounded, be it by a box or by a sphere, unless one of them is not. -/
theorem failsFor_bound_of {rotating : Bool} {blame : Mesh → Fault → Prop} (hne : meshes ≠ [])
    (hbox : ∀ m ∈ meshes, FailsFor m.box (blame m))
    (hsphere : ∀ m ∈ meshes, FailsFor m.sphere (blame m)) :
    FailsFor (bound rotating meshes) fun fault => ∃ m ∈ meshes, blame m fault := by
  cases meshes with
  | nil => exact absurd rfl hne
  | cons m meshes =>
    unfold bound
    cases rotating with
    | true =>
      have hrest (shape : Sphere) :=
        failsFor_growSphere shape fun n hn => hsphere n (List.mem_cons_of_mem m hn)
      have hgrow := (hsphere m List.mem_cons_self).bind fun shape _ =>
        (hrest shape).map fun s => BoundingVolume.sphere s.recentered
      exact hgrow.congr (by simp)
    | false =>
      have hrest (shape : Aabb) :=
        failsFor_growBox shape fun n hn => hbox n (List.mem_cons_of_mem m hn)
      have hgrow := (hbox m List.mem_cons_self).bind fun shape _ =>
        (hrest shape).map BoundingVolume.aabb
      exact hgrow.congr (by simp)

/-- **Whole meshes can be bounded unless one of them has no vertices.** -/
theorem failsFor_bound {rotating : Bool} (hne : meshes ≠ []) (h : ∀ m ∈ meshes, m.Whole) :
    FailsFor (bound rotating meshes) fun fault =>
      ∃ m ∈ meshes, m.vertices = [] ∧ fault = .emptyMesh :=
  failsFor_bound_of hne (fun m hm => failsFor_box (h m hm)) fun m hm => failsFor_sphere (h m hm)

/-- **Meshes can be bounded unless there are none, or one of them has no vertices or
is not valid**, and it is always the geometry that is blamed. -/
theorem failsFor_bound_of_any (rotating : Bool) (meshes : List Mesh) :
    FailsFor (bound rotating meshes) fun fault => fault.kind = .geometry ∧
      (meshes = [] ∨ ∃ m ∈ meshes, m.isEmpty = true ∨ m.validate ≠ .ok ()) := by
  by_cases hne : meshes = []
  · rw [hne]
    constructor
    · intro e he
      cases he
      exact ⟨rfl, .inl rfl⟩
    · exact fun _ => ⟨_, rfl⟩
  · have hbound : FailsFor (bound rotating meshes) fun fault =>
        ∃ m ∈ meshes, fault.kind = .geometry ∧ (m.isEmpty = true ∨ m.validate ≠ .ok ()) :=
      failsFor_bound_of hne (fun m _ => failsFor_fit_of_any Aabb.ofPoints?_eq_none m)
        fun m _ => failsFor_fit_of_any Sphere.ofPoints?_eq_none m
    refine hbound.congr fun fault => ?_
    rw [or_iff_right hne]
    exact ⟨fun ⟨m, hm, hkind, h⟩ => ⟨hkind, m, hm, h⟩, fun ⟨hkind, m, hm, h⟩ => ⟨m, hm, hkind, h⟩⟩

/-- The triangles of whole meshes can be collected. -/
theorem exists_soup (h : m.Whole) : ∃ soup, m.soup = .ok soup :=
  ⟨_, bind_eq_ok.2 ⟨(), validate_eq_ok.2 h, if_pos h.1⟩⟩

end Mesh

end MapDocument
