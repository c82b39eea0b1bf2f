import Mathlib.Data.List.Dedup
import Mathlib.Data.List.ProdSigma
import MapDocument.Proofs.Geometry.Sources
/-!
# Geometry — height grids are tiled

The samples of a grid are stored row by row, and its cells are walked column by
column. Every cell becomes two triangles that share its diagonal from the least corner
to the greatest, so how many corners of triangles are at a sample depends on where
in the grid it is and on nothing else (`cornersAt`). What is written of a corner, its
normal aside, is what its sample says.
-/

namespace MapDocument

/-! ## Lists made of blocks -/

section Blocks

variable {α β γ δ : Type} {f : α → List β} {n k : Nat} {xs : List α} {x : α}

/-- Blocks of one length are found each at its place. -/
theorem take_drop_flatMap (hlength : ∀ y ∈ xs, (f y).length = n) (hx : xs[k]? = some x) :
    ((xs.flatMap f).drop (n * k)).take n = f x := by
  induction xs generalizing k with
  | nil => cases hx
  | cons y ys ih =>
    have hy : (f y).length = n := hlength y List.mem_cons_self
    rw [List.flatMap_cons]
    cases k with
    | zero =>
      cases hx
      exact List.take_left' hy
    | succ k =>
      have hskip : n * (k + 1) = (f y).length + n * k := by
        rw [hy, Nat.mul_succ, Nat.add_comm]
      rw [hskip, List.drop_length_add_append]
      exact ih (fun z hz => hlength z (List.mem_cons_of_mem y hz)) hx

/-- So is each item of a block. -/
theorem getElem?_flatMap {i : Nat} (hlength : ∀ y ∈ xs, (f y).length = n)
    (hx : xs[k]? = some x) (hi : i < n) : (xs.flatMap f)[n * k + i]? = (f x)[i]? := by
  rw [← take_drop_flatMap hlength hx, List.getElem?_take_of_lt hi, List.getElem?_drop]

/-- What is made for pairs, the second numbers of a first one after the other. -/
theorem getElem?_pairs {m i j : Nat} {g : Nat → Nat → β} (hi : i < m) (hj : j < n) :
    ((List.range m).flatMap fun a => (List.range n).map (g a))[i * n + j]? = some (g i j) := by
  have hrow : ((List.range n).map (g i))[j]? = some (g i j) := by
    rw [List.getElem?_map, List.getElem?_range hj]
    rfl
  rw [Nat.mul_comm, ← hrow]
  exact getElem?_flatMap (by simp) (List.getElem?_range hi) hj

/-- Two lists that are made of blocks side by side are gone through block by block. -/
theorem zipWith_flatMap {F : β → γ → δ} {g : α → List γ}
    (h : ∀ y ∈ xs, (f y).length = (g y).length) :
    List.zipWith F (xs.flatMap f) (xs.flatMap g) =
      xs.flatMap fun y => List.zipWith F (f y) (g y) := by
  induction xs with
  | nil => rfl
  | cons y ys ih =>
    rw [List.flatMap_cons, List.flatMap_cons, List.flatMap_cons,
      List.zipWith_append (h y List.mem_cons_self),
      ih fun z hz => h z (List.mem_cons_of_mem y hz)]

/-- What is made of the first of two items alone is made of the first list. -/
theorem flatMap_zipWith {F : α → γ → δ} {g : δ → List β} {zs : List γ}
    (hlength : zs.length = xs.length) (h : ∀ a c, g (F a c) = f a) :
    (List.zipWith F xs zs).flatMap g = xs.flatMap f := by
  induction xs generalizing zs with
  | nil => rfl
  | cons a rest ih =>
    cases zs with
    | nil => cases hlength
    | cons c cs =>
      rw [List.zipWith_cons_cons, List.flatMap_cons, List.flatMap_cons, h,
        ih (Nat.succ.inj hlength)]

end Blocks

namespace HeightGrid

/-- How many corners of triangles are at a sample. -/
def cornersAt (rows columns x z : Nat) : Nat :=
  if x = 0 ∧ z = 0 ∨ x + 1 = columns ∧ z + 1 = rows then 2
  else if (x = 0 ∨ x + 1 = columns) ∧ (z = 0 ∨ z + 1 = rows) then 1
  else if x = 0 ∨ x + 1 = columns ∨ z = 0 ∨ z + 1 = rows then 3
  else 6

namespace Sampler

variable {s : Sampler} {x z : Nat}

/-- A corner at a sample. -/
def vertexAt (s : Sampler) : Nat × Nat → Vec3 → MeshVertex
  | (x, z), normal => ⟨s.pointAt x z, s.texcoordAt x z, normal⟩

/-- The samples that corners are at, in the order of the corners. -/
def emitted (s : Sampler) : List (Nat × Nat) := s.cells.flatMap fun c => cell c.1 c.2

/-! ## The walk over the cells -/

theorem mem_cells : (x, z) ∈ s.cells ↔ x + 1 < s.columns ∧ z + 1 < s.rows := by
  have hcells : s.cells = List.range (s.columns - 1) ×ˢ List.range (s.rows - 1) := rfl
  rw [hcells, List.mem_product, List.mem_range, List.mem_range]
  omega

theorem nodup_cells : s.cells.Nodup := List.Nodup.product List.nodup_range List.nodup_range

theorem length_cells : s.cells.length = (s.columns - 1) * (s.rows - 1) := by
  have hcells : s.cells = List.range (s.columns - 1) ×ˢ List.range (s.rows - 1) := rfl
  rw [hcells, List.length_product, List.length_range, List.length_range]

/-- **Cells are walked column by column.** -/
theorem getElem?_cells (hx : x + 1 < s.columns) (hz : z + 1 < s.rows) :
    s.cells[x * (s.rows - 1) + z]? = some (x, z) :=
  getElem?_pairs (by omega) (by omega)

/-- **Samples are stored row by row.** -/
theorem getElem?_places (hx : x < s.columns) (hz : z < s.rows) :
    s.places[z * s.columns + x]? = some (x, z) :=
  getElem?_pairs (g := fun z x => (x, z)) hz hx

/-- The six corners of a cell come one after the other. -/
theorem take_drop_emitted (hx : x + 1 < s.columns) (hz : z + 1 < s.rows) :
    (s.emitted.drop (6 * (x * (s.rows - 1) + z))).take 6 =
      [(x, z), (x, z + 1), (x + 1, z + 1), (x, z), (x + 1, z + 1), (x + 1, z)] := by
  have hsix : ∀ c ∈ s.cells, (cell c.1 c.2).length = 6 := fun _ _ => rfl
  exact take_drop_flatMap hsix (getElem?_cells hx hz)

theorem length_emitted : s.emitted.length = 6 * (s.rows - 1) * (s.columns - 1) := by
  have hsix : s.emitted.length = 6 * s.cells.length := length_flatMap_blocks fun _ _ => rfl
  rw [hsix, length_cells, Nat.mul_comm (s.columns - 1), Nat.mul_assoc]

/-- All corners are at samples of the grid. -/
theorem of_mem_emitted (h : (x, z) ∈ s.emitted) : x < s.columns ∧ z < s.rows := by
  obtain ⟨⟨a, b⟩, hcell, hmem⟩ := List.mem_flatMap.1 h
  obtain ⟨ha, hb⟩ := mem_cells.1 hcell
  simp only [cell, triangulateQuad, List.mem_cons, Prod.mk.injEq, List.not_mem_nil,
    or_false] at hmem
  omega

/-! ## How often samples are used -/

/-- The place so many columns and rows further on. -/
def shift (columns rows : Nat) (place : Nat × Nat) : Nat × Nat :=
  (place.1 + columns, place.2 + rows)

/-- A sample is the least corner of a cell, the greatest, or one of the two others. -/
theorem count_cell (c place : Nat × Nat) :
    (cell c.1 c.2).count place =
      2 * [shift 0 0 c].count place + [shift 0 1 c].count place +
        2 * [shift 1 1 c].count place + [shift 1 0 c].count place := by
  simp only [cell, triangulateQuad, shift, List.count_cons, List.count_nil, Nat.add_zero,
    Nat.zero_add]
  omega

/-- So the cells are counted that it is each of them of. -/
theorem count_flatMap_cell (cells : List (Nat × Nat)) (place : Nat × Nat) :
    (cells.flatMap fun c => cell c.1 c.2).count place =
      2 * (cells.map (shift 0 0)).count place + (cells.map (shift 0 1)).count place +
        2 * (cells.map (shift 1 1)).count place + (cells.map (shift 1 0)).count place := by
  induction cells with
  | nil => rfl
  | cons c cells ih =>
    have hcons (columns rows : Nat) : ((c :: cells).map (shift columns rows)).count place =
        [shift columns rows c].count place + (cells.map (shift columns rows)).count place := by
      rw [List.map_cons, ← List.singleton_append, List.count_append]
    rw [List.flatMap_cons, List.count_append, ih, hcons, hcons, hcons, hcons]
    have hcell := count_cell c place
    omega

/-- A sample is at most once in each place of a cell. -/
theorem count_map_shift (columns rows : Nat) :
    (s.cells.map (shift columns rows)).count (x, z) =
      if columns ≤ x ∧ x + 1 < s.columns + columns ∧ rows ≤ z ∧ z + 1 < s.rows + rows then 1
      else 0 := by
  have hinjective : Function.Injective (shift columns rows) := by
    rintro ⟨a, b⟩ ⟨c, d⟩ h
    simp only [shift, Prod.mk.injEq] at h ⊢
    omega
  rw [(nodup_cells.map hinjective).count]
  refine if_congr ?_ rfl rfl
  rw [List.mem_map]
  constructor
  · rintro ⟨⟨a, b⟩, hcell, heq⟩
    have hinside := mem_cells.1 hcell
    simp only [shift, Prod.mk.injEq] at heq
    omega
  · rintro ⟨hx, hx', hz, hz'⟩
    refine ⟨(x - columns, z - rows), mem_cells.2 (by omega), ?_⟩
    simp only [shift, Prod.mk.injEq]
    omega

/-- **How often a sample is used** is told by its place. -/
theorem count_emitted (hrows : 2 ≤ s.rows) (hcolumns : 2 ≤ s.columns) (hx : x < s.columns)
    (hz : z < s.rows) : s.emitted.count (x, z) = cornersAt s.rows s.columns x z := by
  rw [emitted, count_flatMap_cell, count_map_shift, count_map_shift, count_map_shift,
    count_map_shift]
  unfold cornersAt
  split_ifs <;> omega

/-! ## Normals -/

/-- The normals of all samples are those of each of them, row by row. -/
theorem pointNormal_of_pointNormals {ns : List Vec3} (h : s.pointNormals = .ok ns)
    (hx : x < s.columns) (hz : z < s.rows) :
    s.pointNormal x z = .ok (ns.toArray.getD (z * s.columns + x) Vec3.zero) := by
  obtain ⟨n, hn, hnormal⟩ := mapM_getElem? h (getElem?_places hx hz)
  rw [Array.getD_eq_getD_getElem?, List.getElem?_toArray, hn]
  exact hnormal

/-- The triangles of all cells, corner by corner, with the normals of the cells. -/
theorem mesh_eq {normalsOf : Nat → Nat → List Vec3} (h : ∀ x z, (normalsOf x z).length = 6) :
    s.mesh normalsOf = Mesh.ofCorners
      (List.zipWith s.vertexAt s.emitted (s.cells.flatMap fun c => normalsOf c.1 c.2)) := by
  have hcell : ∀ c ∈ s.cells, (cell c.1 c.2).length = (normalsOf c.1 c.2).length :=
    fun c _ => (h c.1 c.2).symm
  rw [emitted, zipWith_flatMap hcell]
  rfl

/-- The corners of the triangles of a grid: the samples that they are at, and their
normals. -/
structure Tiling (s : Sampler) (smooth : Bool) (samples : List (Nat × Nat))
    (normals : List Vec3) : Prop where
  length_samples : samples.length = 6 * (s.rows - 1) * (s.columns - 1)
  length_normals : normals.length = samples.length
  /-- All samples are in the grid. -/
  inside : ∀ x z, (x, z) ∈ samples → x < s.columns ∧ z < s.rows
  /-- The cells come column by column, each with two triangles that share its diagonal. -/
  cell : ∀ x z, x + 1 < s.columns → z + 1 < s.rows →
    (samples.drop (6 * (x * (s.rows - 1) + z))).take 6 =
      [(x, z), (x, z + 1), (x + 1, z + 1), (x, z), (x + 1, z + 1), (x + 1, z)]
  /-- All samples of the grid are used, as often as their places say. -/
  count : ∀ x z, x < s.columns → z < s.rows →
    samples.count (x, z) = cornersAt s.rows s.columns x z
  /-- Smooth normals are those of the samples. -/
  smooth_normals : smooth = true →
    (samples.mapM fun place => s.pointNormal place.1 place.2) = .ok normals
  /-- Flat normals are those of the triangles. -/
  flat_normals : smooth = false → ∀ x z, x + 1 < s.columns → z + 1 < s.rows →
    ∃ n₁ n₂ : Vec3,
      n₁ = triangleNormal (s.pointAt x z) (s.pointAt x (z + 1)) (s.pointAt (x + 1) (z + 1)) ∧
      n₂ = triangleNormal (s.pointAt x z) (s.pointAt (x + 1) (z + 1)) (s.pointAt (x + 1) z) ∧
      (normals.drop (6 * (x * (s.rows - 1) + z))).take 6 = [n₁, n₁, n₁, n₂, n₂, n₂]

/-- The positions of a tiling are those of the samples. -/
theorem vertices_tiling {smooth : Bool} {samples : List (Nat × Nat)} {normals : List Vec3}
    (h : s.Tiling smooth samples normals) :
    (Mesh.ofCorners (List.zipWith s.vertexAt samples normals)).vertices =
      samples.flatMap fun place => (s.pointAt place.1 place.2).toList :=
  flatMap_zipWith h.length_normals fun _ _ => rfl

/-- And so are its texture coordinates. -/
theorem texcoords_tiling {smooth : Bool} {samples : List (Nat × Nat)} {normals : List Vec3}
    (h : s.Tiling smooth samples normals) :
    (Mesh.ofCorners (List.zipWith s.vertexAt samples normals)).texcoords =
      samples.flatMap fun place => (s.texcoordAt place.1 place.2).toList :=
  flatMap_zipWith h.length_normals fun _ _ => rfl

/-- Six normals for each cell make a tiling with the samples that are used. -/
theorem Tiling.of_normals (hrows : 2 ≤ s.rows) (hcolumns : 2 ≤ s.columns) {smooth : Bool}
    {normalsOf : Nat → Nat → List Vec3} (hnormals : ∀ x z, (normalsOf x z).length = 6)
    (hsmooth : smooth = true → (s.emitted.mapM fun place => s.pointNormal place.1 place.2) =
      .ok (s.cells.flatMap fun c => normalsOf c.1 c.2))
    (hflat : smooth = false → normalsOf = s.faceNormals) :
    s.Tiling smooth s.emitted (s.cells.flatMap fun c => normalsOf c.1 c.2) where
  length_samples := length_emitted
  length_normals := by
    have hcell (c : Nat × Nat) :
        (normalsOf c.1 c.2).length = (HeightGrid.Sampler.cell c.1 c.2).length := hnormals c.1 c.2
    simp only [emitted, List.length_flatMap, hcell]
  inside x z := of_mem_emitted
  cell x z := take_drop_emitted
  count x z := count_emitted hrows hcolumns
  smooth_normals := hsmooth
  flat_normals h x z hx hz := by
    refine ⟨_, _, rfl, rfl, ?_⟩
    rw [take_drop_flatMap (fun c _ => hnormals c.1 c.2) (getElem?_cells hx hz), hflat h]
    rfl

end Sampler

variable {g : HeightGrid} {s : Sampler} {x z : Nat}

/-- **The mesh of a grid is a tiling of it.** -/
theorem exists_tiling (h : g.sampler = .ok s) :
    ∃ normals, g.buildMesh = .ok (Mesh.ofCorners (List.zipWith s.vertexAt s.emitted normals)) ∧
      s.Tiling g.smooth s.emitted normals := by
  obtain ⟨-, -, hrows, hcolumns, -⟩ := dims_eq_ok.1 (sampler_eq_ok.1 h).1
  unfold buildMesh
  rw [h]
  cases hsmooth : g.smooth with
  | false =>
    refine ⟨_, congrArg Except.ok (Sampler.mesh_eq fun _ _ => Sampler.length_faceNormals), ?_⟩
    exact .of_normals hrows hcolumns (fun _ _ => Sampler.length_faceNormals) nofun fun _ => rfl
  | true =>
    obtain ⟨ns, hns⟩ := Sampler.exists_pointNormals hrows hcolumns (s := s)
    have hlength (x z : Nat) : (s.sampleNormals ns.toArray x z).length = 6 :=
      Sampler.length_sampleNormals
    refine ⟨_, bind_eq_ok.2 ⟨s, rfl, (if_pos rfl).trans (bind_eq_ok.2
      ⟨ns, hns, congrArg Except.ok (Sampler.mesh_eq hlength)⟩)⟩, ?_⟩
    refine .of_normals hrows hcolumns hlength (fun _ => ?_) nofun
    -- the normals of all samples are read where those of each of them were put
    have hread : ∀ place ∈ s.emitted, s.pointNormal place.1 place.2 =
        .ok (ns.toArray.getD (place.2 * s.columns + place.1) Vec3.zero) := fun place hplace => by
      obtain ⟨hx, hz⟩ := Sampler.of_mem_emitted hplace
      exact Sampler.pointNormal_of_pointNormals hns hx hz
    rw [mapM_eq_ok hread, Sampler.emitted, List.map_flatMap]
    rfl

/-- There are as many places as samples. -/
theorem place_lt {rows columns : Nat} (hx : x < columns) (hz : z < rows) :
    z * columns + x < rows * columns := by
  calc z * columns + x < z * columns + columns := Nat.add_lt_add_left hx _
    _ = (z + 1) * columns := (Nat.succ_mul z columns).symm
    _ ≤ rows * columns := Nat.mul_le_mul_right _ hz

/-- The height of a sample is there, in its row and its column. -/
theorem getElem?_heights (h : g.sampler = .ok s) (hx : x < s.columns) (hz : z < s.rows) :
    g.heights.values[z * s.columns + x]? = some (s.pointAt x z).y := by
  obtain ⟨hdims, hs⟩ := sampler_eq_ok.1 h
  obtain ⟨-, -, -, -, hsamples⟩ := dims_eq_ok.1 hdims
  have hplace : z * s.columns + x < g.heights.values.length := by
    rw [hsamples]
    exact place_lt hx hz
  have hheight : (s.pointAt x z).y = g.heights.values.toArray.getD (z * s.columns + x) .zero := by
    rw [Sampler.pointAt, Sampler.heightAt, hs]
  rw [hheight, Array.getD_eq_getD_getElem?, List.getElem?_toArray,
    List.getElem?_eq_getElem hplace]
  rfl

/-- The neighbors of a sample are samples of the grid. -/
theorem Sampler.of_mem_neighbors {p : Vec3} (h : some p ∈ s.neighbors x z) (hx : x < s.columns)
    (hz : z < s.rows) : ∃ x' z', x' < s.columns ∧ z' < s.rows ∧ p = s.pointAt x' z' := by
  have hguard {c : Prop} [Decidable c] {q : Vec3} (hp : some p = if c then some q else none) :
      c ∧ p = q := by
    split at hp
    · exact ⟨‹c›, Option.some.inj hp⟩
    · cases hp
  simp only [neighbors, List.mem_cons, List.not_mem_nil, or_false] at h
  rcases h with h | h | h | h
  · obtain ⟨_, rfl⟩ := hguard h
    exact ⟨x, z - 1, hx, by omega, rfl⟩
  · obtain ⟨_, rfl⟩ := hguard h
    exact ⟨x - 1, z, by omega, hz, rfl⟩
  · obtain ⟨hz', rfl⟩ := hguard h
    exact ⟨x, z + 1, hx, hz', rfl⟩
  · obtain ⟨hx', rfl⟩ := hguard h
    exact ⟨x + 1, z, hx', hz, rfl⟩

/-- A grid that is large enough, and has a sample for each place, has its samples. -/
theorem exists_sampler (hrows : 2 ≤ g.rows.toInt) (hcolumns : 2 ≤ g.columns.toInt)
    (hsamples : (g.heights.values.length : Int) = g.rows.toInt * g.columns.toInt) :
    ∃ s, g.sampler = .ok s ∧ (s.rows : Int) = g.rows.toInt ∧
      (s.columns : Int) = g.columns.toInt := by
  obtain ⟨rows, hr⟩ := Int.eq_ofNat_of_zero_le (by omega : 0 ≤ g.rows.toInt)
  obtain ⟨columns, hc⟩ := Int.eq_ofNat_of_zero_le (by omega : 0 ≤ g.columns.toInt)
  have hlength : g.heights.values.length = rows * columns := by
    rw [hr, hc] at hsamples
    exact_mod_cast hsamples
  have hdims : g.dims = .ok (rows, columns) :=
    dims_eq_ok.2 ⟨hr, hc, by omega, by omega, hlength⟩
  exact ⟨⟨g.xLength, g.zLength, rows, columns, g.heights.values.toArray⟩,
    sampler_eq_ok.2 ⟨hdims, rfl⟩, hr.symm, hc.symm⟩

/-- **Height grids are triangulated exactly.** The mesh of a grid has six corners for
each of its cells, which are at the samples of the cells in their order. What is
written of a corner is what its sample says: its position with the height that is stored
in its row and its column, its texture coordinates and, if the grid is smooth, its
normal; otherwise the normal is that of its triangle. Every sample is used, as often as
its place says, and no place is looked at that is not in the grid. Whether the grid is
smooth has no part in the positions and in the texture coordinates. -/
theorem buildMesh_tiles (hrows : 2 ≤ g.rows.toInt) (hcolumns : 2 ≤ g.columns.toInt)
    (hsamples : (g.heights.values.length : Int) = g.rows.toInt * g.columns.toInt) :
    ∃ (s : Sampler) (m : Mesh) (samples : List (Nat × Nat)) (normals : List Vec3),
      (g.sampler = .ok s ∧ (s.rows : Int) = g.rows.toInt ∧ (s.columns : Int) = g.columns.toInt) ∧
      g.buildMesh = .ok m ∧
      m = Mesh.ofCorners (List.zipWith s.vertexAt samples normals) ∧
      m.vertexCount = 6 * (s.rows - 1) * (s.columns - 1) ∧
      s.Tiling g.smooth samples normals ∧
      (∀ x z, x < s.columns → z < s.rows →
        g.heights.values[z * s.columns + x]? = some (s.pointAt x z).y ∧
          ∀ p, some p ∈ s.neighbors x z →
            ∃ x' z', x' < s.columns ∧ z' < s.rows ∧ p = s.pointAt x' z') ∧
      ∀ smooth, ∃ m', { g with smooth }.buildMesh = .ok m' ∧
        m'.vertices = m.vertices ∧ m'.texcoords = m.texcoords := by
  obtain ⟨s, hs, hr, hc⟩ := exists_sampler hrows hcolumns hsamples
  obtain ⟨normals, hbuild, htiling⟩ := exists_tiling hs
  refine ⟨s, _, s.emitted, normals, ⟨hs, hr, hc⟩, hbuild, rfl, ?_, htiling,
    fun x z hx hz => ⟨getElem?_heights hs hx hz, fun p hp => Sampler.of_mem_neighbors hp hx hz⟩,
    fun smooth => ?_⟩
  · rw [Mesh.vertexCount, Mesh.length_vertices_ofCorners, List.length_zipWith,
      htiling.length_normals, Nat.min_self, ← htiling.length_samples]
    omega
  · -- the samples are the same, and only normals are chosen by what the grid says
    obtain ⟨normals', hbuild', htiling'⟩ := exists_tiling (g := { g with smooth }) hs
    refine ⟨_, hbuild', ?_, ?_⟩
    · rw [Sampler.vertices_tiling htiling, Sampler.vertices_tiling htiling']
    · rw [Sampler.texcoords_tiling htiling, Sampler.texcoords_tiling htiling']

/-- A grid with a slope. -/
def slope : HeightGrid where
  xLength := 2
  zLength := 4
  rows := 3
  columns := 2
  heights := ⟨[0, 0, 1, 1, 3, 3]⟩
  smooth := true

/-- A sample in the middle of a side of the slope is a corner of three of its four triangles. -/
theorem buildMesh_tiles_slope :
    2 ≤ slope.rows.toInt ∧ 2 ≤ slope.columns.toInt ∧
    (slope.heights.values.length : Int) = slope.rows.toInt * slope.columns.toInt ∧
    ∃ (s : Sampler) (m : Mesh) (samples : List (Nat × Nat)) (normals : List Vec3),
      slope.buildMesh = .ok m ∧ m = Mesh.ofCorners (List.zipWith s.vertexAt samples normals) ∧
      m.vertexCount = 12 ∧ samples.count (0, 1) = 3 ∧ (s.pointAt 0 1).y = 1 := by
  have hrows : slope.rows.toInt = 3 := by decide
  have hcolumns : slope.columns.toInt = 2 := by decide
  have hsamples : (slope.heights.values.length : Int) = slope.rows.toInt * slope.columns.toInt := by
    decide
  obtain ⟨s, m, samples, normals, ⟨-, hr, hc⟩, hbuild, hm, hcount, htiling, hread, -⟩ :=
    buildMesh_tiles (by omega) (by omega) hsamples
  obtain ⟨hrows', hcolumns'⟩ : s.rows = 3 ∧ s.columns = 2 := by omega
  rw [hrows', hcolumns'] at hcount
  have hused := htiling.count 0 1 (by omega) (by omega)
  rw [hrows', hcolumns'] at hused
  have hheight := (hread 0 1 (by omega) (by omega)).1
  rw [hcolumns'] at hheight
  exact ⟨by omega, by omega, hsamples, s, m, samples, normals, hbuild, hm, hcount, hused,
    (Option.some.inj hheight).symm⟩

end HeightGrid

end MapDocument
