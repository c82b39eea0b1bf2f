import MapDocument.Proofs.Geometry.Mesh
import MapDocument.Proofs.Journal
import MapDocument.Scene.RenderUnit
/-!
# Geometry — what the sources of meshes build

A source in which no error was found builds a whole mesh with vertices. The
one exception is a vertex array without vertices: that it is empty is not an
error, and its other streams are not looked at, so it builds a mesh without
vertices or, where they do not agree with it, none at all.
-/

namespace MapDocument

/-- A whole mesh with vertices. -/
def Mesh.Solid (m : Mesh) : Prop := m.Whole ∧ m.vertices ≠ []

/-- Corners that come in threes make a solid mesh if there are any. -/
theorem Mesh.solid_ofCorners {corners : List MeshVertex} (h : corners.length % 3 = 0)
    (hpos : 0 < corners.length) : (Mesh.ofCorners corners).Solid :=
  ⟨whole_ofCorners h, vertices_ofCorners_ne_nil hpos⟩

/-- Blocks of one length are together as long as so many of them. -/
theorem length_flatMap_blocks {α β : Type} {f : α → List β} {n : Nat} {xs : List α}
    (h : ∀ x ∈ xs, (f x).length = n) : (xs.flatMap f).length = n * xs.length := by
  induction xs with
  | nil => rfl
  | cons x xs ih =>
    rw [List.flatMap_cons, List.length_append, h x List.mem_cons_self,
      ih fun y hy => h y (List.mem_cons_of_mem x hy), List.length_cons, Nat.mul_succ, Nat.add_comm]

/-- Lists of six corners make a solid mesh if there are any. -/
theorem Mesh.solid_flatMap {α : Type} {corners : α → List MeshVertex} {xs : List α}
    (hxs : 0 < xs.length) (h : ∀ x ∈ xs, (corners x).length = 6) :
    (Mesh.ofCorners (xs.flatMap corners)).Solid := by
  have hlength := length_flatMap_blocks h
  refine Mesh.solid_ofCorners ?_ ?_
  · rw [hlength]
    omega
  · rw [hlength]
    omega

/-! ## Rectangles -/

namespace RectMesh

/-- A rectangle has six corners. -/
theorem length_cornerNormals (r : RectMesh) : r.cornerNormals.length = 6 := by
  unfold cornerNormals
  split <;> rfl

/-- **A rectangle without errors builds a mesh.** -/
theorem exists_buildMesh {r : RectMesh} (h : (Inspect.findings r).Harmless) :
    ∃ m, r.buildMesh = .ok m ∧ m.Solid := by
  have hfaces : isFlat r.cross1 = false ∧ isFlat r.cross2 = false := by
    simpa [Inspect.findings, faceFindings] using h
  have hbuild : ¬ (isFlat r.cross1 || isFlat r.cross2) = true := by
    rw [hfaces.1, hfaces.2]
    decide
  refine ⟨_, if_neg hbuild, ?_⟩
  have hpositions : (triangulateQuad r.p1 r.p2 r.p3 r.p4).length = 6 := rfl
  have htexcoords : quadTexcoords.length = 6 := rfl
  refine Mesh.solid_ofCorners ?_ ?_
  · rw [List.length_zipWith, List.length_zip, length_cornerNormals, hpositions, htexcoords]
    decide
  · rw [List.length_zipWith, List.length_zip, length_cornerNormals, hpositions, htexcoords]
    decide

end RectMesh

/-! ## Height grids -/

namespace HeightGrid

/-- **The dimensions of a grid without errors are right.** -/
theorem dims_of_harmless {g : HeightGrid} (h : (Inspect.findings g).Harmless) :
    g.dims = .ok (g.rows.toInt.toNat, g.columns.toInt.toNat) ∧
      2 ≤ g.rows.toInt.toNat ∧ 2 ≤ g.columns.toInt.toNat := by
  have hsize : (if g.rows.toInt < 2 ∨ g.columns.toInt < 2 then Findings.note .error _
      else Findings.noteIf
        (g.heights.values.length ≠ g.rows.toInt.toNat * g.columns.toInt.toNat) .error _).Harmless :=
    (Findings.harmless_append.1 h).1
  -- the samples are only counted where the dimensions will do
  by_cases hsmall : g.rows.toInt < 2 ∨ g.columns.toInt < 2
  · rw [if_pos hsmall] at hsize
    exact absurd rfl (Findings.harmless_note.1 hsize)
  · rw [if_neg hsmall] at hsize
    have hsamples : ¬ g.heights.values.length ≠ g.rows.toInt.toNat * g.columns.toInt.toNat :=
      fun h => Findings.harmless_noteIf.1 hsize (decide_eq_true h) rfl
    refine ⟨?_, by omega, by omega⟩
    simp only [dims, if_neg hsmall, if_neg hsamples]

/-- The dimensions of a grid are right when it has two rows and two columns at least, and
as many samples as they have places. -/
theorem dims_eq_ok {g : HeightGrid} {rows columns : Nat} :
    g.dims = .ok (rows, columns) ↔
      g.rows.toInt = rows ∧ g.columns.toInt = columns ∧ 2 ≤ rows ∧ 2 ≤ columns ∧
        g.heights.values.length = rows * columns := by
  constructor
  · intro h
    simp only [dims] at h
    split at h
    · cases h
    · split at h
      · cases h
      · cases h
        exact ⟨by omega, by omega, by omega, by omega, by omega⟩
  · rintro ⟨hrows, hcolumns, htwoRows, htwoColumns, hsamples⟩
    simp only [dims, hrows, hcolumns, Int.toNat_natCast]
    rw [if_neg (by omega), if_neg (by omega)]

/-- The samples of a grid are there when its dimensions are right. -/
theorem sampler_eq_ok {g : HeightGrid} {s : Sampler} :
    g.sampler = .ok s ↔ g.dims = .ok (s.rows, s.columns) ∧
      s = ⟨g.xLength, g.zLength, s.rows, s.columns, g.heights.values.toArray⟩ := by
  constructor
  · intro h
    obtain ⟨⟨rows, columns⟩, hdims, h⟩ := bind_eq_ok.1 h
    cases h
    exact ⟨hdims, rfl⟩
  · rintro ⟨hdims, hs⟩
    rw [hs]
    exact bind_eq_ok.2 ⟨_, hdims, rfl⟩

namespace Sampler

variable {s : Sampler} {x z : Nat}

/-- Two neighbors of a sample, one on each axis, stand next to each other. -/
theorem cornerNormals_ne_nil (hrows : 0 < z ∨ z + 1 < s.rows)
    (hcolumns : 0 < x ∨ x + 1 < s.columns) : s.cornerNormals x z ≠ [] := by
  unfold cornerNormals neighbors
  rcases hrows with hz | hz <;> rcases hcolumns with hx | hx <;>
    simp [hz, hx, cornerNormal]

/-- Every sample of a grid has a normal. -/
theorem exists_pointNormal (hrows : 2 ≤ s.rows) (hcolumns : 2 ≤ s.columns) (hx : x < s.columns)
    (hz : z < s.rows) : ∃ n, s.pointNormal x z = .ok n := by
  have hne := cornerNormals_ne_nil (s := s) (x := x) (z := z) (by omega) (by omega)
  have hsome : ¬ (s.cornerNormals x z).isEmpty = true := by
    rw [List.isEmpty_iff]
    exact hne
  exact ⟨_, if_neg hsome⟩

theorem exists_pointNormals (hrows : 2 ≤ s.rows) (hcolumns : 2 ≤ s.columns) :
    ∃ ns, s.pointNormals = .ok ns := by
  refine exists_mapM_ok fun place hplace => ?_
  obtain ⟨x, z⟩ := place
  simp only [places, List.mem_flatMap, List.mem_map, List.mem_range, Prod.mk.injEq] at hplace
  obtain ⟨_, hz, _, hx, rfl, rfl⟩ := hplace
  exact exists_pointNormal hrows hcolumns hx hz

theorem length_faceNormals : (s.faceNormals x z).length = 6 := rfl

theorem length_sampleNormals {normals : Array Vec3} : (s.sampleNormals normals x z).length = 6 := rfl

/-- **A grid builds a mesh** from any six normals for each cell. -/
theorem solid_mesh (hrows : 2 ≤ s.rows) (hcolumns : 2 ≤ s.columns)
    {normalsOf : Nat → Nat → List Vec3} (hnormals : ∀ x z, (normalsOf x z).length = 6) :
    (s.mesh normalsOf).Solid := by
  have hcell (x z : Nat) : (s.cellCorners x z (normalsOf x z)).length = 6 := by
    rw [cellCorners, List.length_zipWith, hnormals]
    rfl
  -- the first cell is always there
  have hcells : 0 < s.cells.length := by
    refine List.length_pos_of_mem (a := (0, 0)) ?_
    simp only [cells, List.mem_flatMap, List.mem_map, List.mem_range, Prod.mk.injEq]
    exact ⟨0, by omega, 0, by omega, rfl, rfl⟩
  exact Mesh.solid_flatMap hcells fun cell _ => hcell cell.1 cell.2

end Sampler

/-- **A height grid without errors builds a mesh.** -/
theorem exists_buildMesh {g : HeightGrid} (h : (Inspect.findings g).Harmless) :
    ∃ m, g.buildMesh = .ok m ∧ m.Solid := by
  obtain ⟨hdims, hrows, hcolumns⟩ := dims_of_harmless h
  have hsampler : g.sampler = .ok ⟨g.xLength, g.zLength, _, _, g.heights.values.toArray⟩ :=
    bind_eq_ok.2 ⟨_, hdims, rfl⟩
  unfold buildMesh
  rw [hsampler]
  by_cases hsmooth : g.smooth = true
  · obtain ⟨normals, hnormals⟩ := Sampler.exists_pointNormals hrows hcolumns
      (s := ⟨g.xLength, g.zLength, _, _, g.heights.values.toArray⟩)
    refine ⟨_, bind_eq_ok.2 ⟨_, rfl, (if_pos hsmooth).trans (bind_eq_ok.2 ⟨_, hnormals, rfl⟩)⟩, ?_⟩
    exact Sampler.solid_mesh hrows hcolumns fun _ _ => Sampler.length_sampleNormals
  · refine ⟨_, bind_eq_ok.2 ⟨_, rfl, if_neg hsmooth⟩, ?_⟩
    exact Sampler.solid_mesh hrows hcolumns fun _ _ => Sampler.length_faceNormals

end HeightGrid

/-! ## Vertex arrays -/

namespace VertexArray

variable {a : VertexArray}

/-- An array without vertices that has texture coordinates, or else normals. -/
def Stray (a : VertexArray) (fault : Fault) : Prop :=
  a.vertices.values = [] ∧
    (a.texcoords.values ≠ [] ∧ fault = .texcoordCount a.texcoords.values.length 0 ∨
      a.texcoords.values = [] ∧ a.normals.values ≠ [] ∧
        fault = .normalCount a.normals.values.length 0)

/-- The streams of an array with vertices and without errors agree. -/
theorem whole_of_harmless (h : (Inspect.findings a).Harmless) (hne : a.vertices.values ≠ []) :
    a.toMesh.Whole := by
  have hlength : a.vertices.values.length ≠ 0 := by simpa using hne
  simp [Inspect.findings, hne] at h
  obtain ⟨⟨hvertices, htexcoords⟩, hnormals⟩ := h
  exact ⟨by simpa [toMesh] using hvertices, htexcoords, hnormals⟩

/-- An array without vertices is refused for its other streams. -/
theorem failsFor_validate (h : a.vertices.values = []) : FailsFor a.toMesh.validate a.Stray := by
  have hvertices : a.toMesh.vertices = [] := h
  refine a.toMesh.failsFor_validate.congr fun fault => ?_
  rw [Stray, Mesh.vertexCount, hvertices]
  simp [h, toMesh]

/-- **An array without errors is refused only where it has no vertices.** -/
theorem failsFor_buildMesh (h : (Inspect.findings a).Harmless) : FailsFor a.buildMesh a.Stray := by
  by_cases hempty : a.vertices.values = []
  · exact (failsFor_validate hempty).map fun _ => a.toMesh
  · have hwhole := whole_of_harmless h hempty
    have hbuild : a.buildMesh = .ok a.toMesh :=
      bind_eq_ok.2 ⟨(), Mesh.validate_eq_ok.2 hwhole, rfl⟩
    exact (FailsFor.never ⟨_, hbuild⟩).congr fun fault => ⟨False.elim, fun hf => hempty hf.1⟩

/-- What an array builds is whole. -/
theorem buildMesh_eq_ok {m : Mesh} (h : a.buildMesh = .ok m) : m.Whole ∧ m = a.toMesh := by
  obtain ⟨_, hvalid, hm⟩ := bind_eq_ok.1 h
  cases hm
  exact ⟨Mesh.validate_eq_ok.1 hvalid, rfl⟩

end VertexArray

/-! ## All sources -/

namespace MeshSource

variable {s : MeshSource}

/-- A vertex array without vertices. -/
def IsEmptyArray (s : MeshSource) : Prop := ∃ a, s = vertexArray a ∧ a.vertices.values = []

/-- A vertex array without vertices, but with something else. -/
def Stray (s : MeshSource) (fault : Fault) : Prop := ∃ a, s = vertexArray a ∧ a.Stray fault

/-- **A source without errors builds a mesh, unless it is a vertex array
without vertices.** -/
theorem failsFor_buildMesh (h : (Inspect.findings s).Harmless) : FailsFor s.buildMesh s.Stray := by
  cases s with
  | rect r =>
    obtain ⟨m, hm, -⟩ := r.exists_buildMesh h
    exact (FailsFor.never ⟨m, hm⟩).congr (by simp [Stray])
  | heightGrid g =>
    obtain ⟨m, hm, -⟩ := g.exists_buildMesh h
    exact (FailsFor.never ⟨m, hm⟩).congr (by simp [Stray])
  | vertexArray a => exact (VertexArray.failsFor_buildMesh h).congr (by simp [Stray])

/-- **The mesh is whole, and has vertices but for the same exception.** -/
theorem whole_of_buildMesh {m : Mesh} (h : (Inspect.findings s).Harmless)
    (hm : s.buildMesh = .ok m) : m.Whole ∧ (m.vertices = [] ↔ s.IsEmptyArray) := by
  have hsolid (hm' : ∃ m', s.buildMesh = .ok m' ∧ m'.Solid) (hs : ¬ s.IsEmptyArray) :
      m.Whole ∧ (m.vertices = [] ↔ s.IsEmptyArray) := by
    obtain ⟨m', hm', hwhole, hne⟩ := hm'
    rw [hm] at hm'
    cases hm'
    exact ⟨hwhole, iff_of_false hne hs⟩
  cases s with
  | rect r => exact hsolid (r.exists_buildMesh h) (by simp [IsEmptyArray])
  | heightGrid g => exact hsolid (g.exists_buildMesh h) (by simp [IsEmptyArray])
  | vertexArray a =>
    obtain ⟨hwhole, rfl⟩ := VertexArray.buildMesh_eq_ok hm
    exact ⟨hwhole, by simp [IsEmptyArray, VertexArray.toMesh]⟩

end MeshSource

end MapDocument
