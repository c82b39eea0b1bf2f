import MapDocument.Proofs.Geometry.Sources
import MapDocument.Proofs.Geometry.Stream
/-!
# Geometry — validation and building agree

Whether a source of a mesh is sound is asked twice: when it is judged, where each
thing that is wrong is an error of the report, and when its mesh is built, which
fails for the first of them. For rectangles, for height grids and for vertex arrays
with vertices the two give one answer (`BuiltAsJudged`), whatever numbers there are.
A vertex array without vertices is where they part: its other streams are only
looked at when it is built.
-/

namespace MapDocument

open Journal (HoldsError)

/-- A mesh fails to be built when an error is noted; if it is built, it is valid
and has a triangle. -/
structure BuiltAsJudged (built : Except Error Mesh) (judged : Findings) : Prop where
  fails_iff : (∃ e, built = .error e) ↔ HoldsError judged.notes
  validate : ∀ m, built = .ok m → m.validate = .ok ()
  exists_triangle : ∀ m, built = .ok m →
    ∃ soup, m.soup = .ok soup ∧ 0 < soup.triangles.length

namespace Findings

@[simp] theorem children_append (f g : Findings) :
    (f ++ g).children = f.children ++ g.children := rfl

@[simp] theorem children_note (severity : Severity) (message : String) :
    (note severity message).children = [] := rfl

@[simp] theorem children_noteIf (condition : Bool) (severity : Severity) (message : String) :
    (noteIf condition severity message).children = [] := by
  cases condition <;> rfl

/-- Where nothing is inside a node, its own notes are all that can be errors. -/
theorem not_harmless_iff {f : Findings} (h : f.children = []) :
    ¬ f.Harmless ↔ HoldsError f.notes := by
  rw [Harmless, Classical.not_not, h]
  refine or_iff_left ?_
  rintro ⟨note, hnote, -⟩
  cases hnote

end Findings

/-- A solid mesh has a triangle. -/
theorem Mesh.Solid.exists_triangle {m : Mesh} (h : m.Solid) :
    ∃ soup, m.soup = .ok soup ∧ 0 < soup.triangles.length := by
  obtain ⟨soup, hsoup⟩ := exists_soup h.1
  have hlength : m.vertices.length = 9 * soup.triangles.length := by
    rw [← (soup_eq_ok hsoup).2, TriangleSoup.length_toList]
  have hpos : 0 < m.vertices.length := List.length_pos_iff.2 h.2
  exact ⟨soup, hsoup, by omega⟩

/-- Building agrees with judging if it gives something solid where nothing is wrong,
and nothing anywhere else. -/
theorem BuiltAsJudged.of_harmless {built : Except Error Mesh} {judged : Findings}
    (hleaf : judged.children = []) (hbuilt : judged.Harmless → ∃ m, built = .ok m ∧ m.Solid)
    (hjudged : ∀ m, built = .ok m → judged.Harmless) : BuiltAsJudged built judged := by
  have hsolid (m : Mesh) (hm : built = .ok m) : m.Solid := by
    obtain ⟨m', hm', hsolid⟩ := hbuilt (hjudged m hm)
    cases hm.symm.trans hm'
    exact hsolid
  refine ⟨?_, fun m hm => Mesh.validate_eq_ok.2 (hsolid m hm).1,
    fun m hm => (hsolid m hm).exists_triangle⟩
  rw [← Findings.not_harmless_iff hleaf]
  constructor
  · rintro ⟨e, he⟩ hharmless
    obtain ⟨m, hm, -⟩ := hbuilt hharmless
    cases he.symm.trans hm
  · intro hharmful
    cases hm : built with
    | ok m => exact absurd (hjudged m hm) hharmful
    | error e => exact ⟨e, rfl⟩

/-! ## Rectangles -/

namespace RectMesh

/-- A rectangle of which a mesh is built has two faces with an area. -/
theorem harmless_of_buildMesh {r : RectMesh} {m : Mesh} (h : r.buildMesh = .ok m) :
    (Inspect.findings r).Harmless := by
  unfold buildMesh at h
  split at h
  · cases h
  · rename_i hflat
    rw [Bool.or_eq_true, not_or, Bool.not_eq_true, Bool.not_eq_true] at hflat
    simp [Inspect.findings, faceFindings, hflat.1, hflat.2]

/-- **A rectangle is built as it is judged.** -/
theorem builtAsJudged (r : RectMesh) : BuiltAsJudged r.buildMesh (Inspect.findings r) :=
  .of_harmless (by simp [Inspect.findings, faceFindings]) exists_buildMesh
    fun _ => harmless_of_buildMesh

end RectMesh

/-! ## Height grids -/

namespace HeightGrid

variable {g : HeightGrid}

/-- Nothing is wrong with a grid whose dimensions are right. -/
theorem harmless_of_dims {dims : Nat × Nat} (h : g.dims = .ok dims) :
    (Inspect.findings g).Harmless := by
  obtain ⟨hrows, hcolumns, htwoRows, htwoColumns, hsamples⟩ := dims_eq_ok.1 h
  have hsmall : ¬ (g.rows.toInt < 2 ∨ g.columns.toInt < 2) := by omega
  simp only [Inspect.findings, if_neg hsmall, Findings.harmless_append]
  simp [hrows, hcolumns, hsamples]

/-- A grid of which a mesh is built has the right dimensions. -/
theorem exists_dims_of_buildMesh {m : Mesh} (h : g.buildMesh = .ok m) :
    ∃ dims, g.dims = .ok dims := by
  obtain ⟨s, hs, -⟩ := bind_eq_ok.1 h
  obtain ⟨dims, hdims, -⟩ := bind_eq_ok.1 hs
  exact ⟨dims, hdims⟩

/-- **A grid is built as it is judged.** -/
theorem builtAsJudged (g : HeightGrid) : BuiltAsJudged g.buildMesh (Inspect.findings g) := by
  refine .of_harmless ?_ exists_buildMesh fun m hm => ?_
  · -- the note on the size is the same kind of note either way
    simp only [Inspect.findings]
    split <;> simp
  · obtain ⟨dims, hdims⟩ := exists_dims_of_buildMesh hm
    exact harmless_of_dims hdims

/-- **A grid is refused for its dimensions only**, so never for a sample without
neighbors next to each other. -/
theorem fault_ne_loneSample {e : Error} (h : g.buildMesh = .error e) (x z : Nat) :
    e.fault ≠ .loneSample x z := by
  have hdims : g.dims = .error e := by
    cases hdims : g.dims with
    | ok dims =>
      obtain ⟨m, hm, -⟩ := exists_buildMesh (harmless_of_dims hdims)
      cases h.symm.trans hm
    | error e' =>
      unfold buildMesh sampler at h
      rw [hdims] at h
      cases h
      rfl
  intro hfault
  simp only [dims] at hdims
  split at hdims
  · cases hdims
    cases hfault
  · split at hdims
    · cases hdims
      cases hfault
    · cases hdims

/-- Every sample of a grid has a normal. -/
theorem exists_pointNormal {s : Sampler} (h : g.sampler = .ok s) {x z : Nat} (hx : x < s.columns)
    (hz : z < s.rows) : ∃ n, s.pointNormal x z = .ok n := by
  obtain ⟨-, -, hrows, hcolumns, -⟩ := dims_eq_ok.1 (sampler_eq_ok.1 h).1
  exact Sampler.exists_pointNormal hrows hcolumns hx hz

end HeightGrid

/-! ## Vertex arrays -/

namespace VertexArray

variable {a : VertexArray}

/-- Nothing is wrong with an array whose streams agree. -/
theorem harmless_of_whole (h : a.toMesh.Whole) : (Inspect.findings a).Harmless := by
  obtain ⟨hvertices, htexcoords, hnormals⟩ := h
  simp only [toMesh, Mesh.vertexCount] at hvertices htexcoords hnormals
  by_cases hempty : a.vertices.values = []
  · simp [Inspect.findings, hempty]
  · simp [Inspect.findings, hempty, hvertices, htexcoords, hnormals]

/-- The mesh of the streams is built when they agree. -/
theorem exists_ok_iff : (∃ m, a.buildMesh = .ok m) ↔ a.toMesh.Whole := by
  constructor
  · rintro ⟨m, hm⟩
    obtain ⟨hwhole, rfl⟩ := buildMesh_eq_ok hm
    exact hwhole
  · exact fun h => ⟨_, bind_eq_ok.2 ⟨(), Mesh.validate_eq_ok.2 h, rfl⟩⟩

/-- **An array with vertices is built as it is judged.** -/
theorem builtAsJudged (h : a.vertices.values ≠ []) :
    BuiltAsJudged a.buildMesh (Inspect.findings a) := by
  refine .of_harmless ?_ (fun hharmless => ?_) fun m hm => ?_
  · simp [Inspect.findings, h]
  · have hwhole := whole_of_harmless hharmless h
    exact ⟨_, bind_eq_ok.2 ⟨(), Mesh.validate_eq_ok.2 hwhole, rfl⟩, hwhole, h⟩
  · exact harmless_of_whole (exists_ok_iff.1 ⟨m, hm⟩)

/-- **One without vertices is only warned about**, and built when it has nothing else either. -/
theorem exists_ok_iff_of_empty (h : a.vertices.values = []) :
    (∃ m, a.buildMesh = .ok m) ↔ a.texcoords.values = [] ∧ a.normals.values = [] := by
  rw [exists_ok_iff, Mesh.Whole]
  simp [toMesh, Mesh.vertexCount, h]

end VertexArray

/-- **Validation and building agree on every source of a mesh.** A rectangle, a height
grid, and a vertex array with vertices fails to be built just when its report has an
error, and what is built is valid and has a triangle; a grid is never refused for a
sample without neighbors next to each other, and every sample has a normal. A vertex
array without vertices is warned about and no more, and it is built when it has no
texture coordinates and no normals either; what is built is valid. -/
theorem sources_built_as_judged :
    (∀ r : RectMesh, BuiltAsJudged r.buildMesh (Inspect.findings r)) ∧
    (∀ g : HeightGrid, BuiltAsJudged g.buildMesh (Inspect.findings g) ∧
      (∀ e, g.buildMesh = .error e → ∀ x z, e.fault ≠ .loneSample x z) ∧
      ∀ s, g.sampler = .ok s → ∀ x z, x < s.columns → z < s.rows →
        ∃ n, s.pointNormal x z = .ok n) ∧
    (∀ a : VertexArray,
      (a.vertices.values ≠ [] → BuiltAsJudged a.buildMesh (Inspect.findings a)) ∧
      (a.vertices.values = [] →
        Inspect.findings a = .note .warn "vertex array is empty" ∧
          ((∃ m, a.buildMesh = .ok m) ↔ a.texcoords.values = [] ∧ a.normals.values = [])) ∧
      ∀ m, a.buildMesh = .ok m → m.validate = .ok ()) := by
  refine ⟨RectMesh.builtAsJudged, fun g => ⟨g.builtAsJudged, fun _ => g.fault_ne_loneSample,
    fun _ hs _ _ => g.exists_pointNormal hs⟩, fun a => ⟨VertexArray.builtAsJudged,
    fun hempty => ⟨if_pos (List.length_eq_zero_iff.2 hempty),
      VertexArray.exists_ok_iff_of_empty hempty⟩, fun m hm => ?_⟩⟩
  exact Mesh.validate_eq_ok.2 (VertexArray.buildMesh_eq_ok hm).1

/-- An array of one triangle without texture coordinates and normals. -/
def plainArray : VertexArray := ⟨⟨List.replicate 9 0⟩, .empty, .empty⟩

/-- An array without vertices, but with a texture coordinate. -/
def strayArray : VertexArray := ⟨.empty, ⟨[0]⟩, .empty⟩

/-- A grid of one row. -/
def thinGrid : HeightGrid := ⟨1, 1, 1, 2, ⟨[0, 0]⟩, false⟩

/-- A rectangle is built, and a grid with the normal of a corner. A grid of one row and an array
that has nothing but vertices are refused and noted as errors; and an array that has no vertices
but something else is refused with no more than a warning. -/
theorem sources_built_as_judged_stray :
    (∃ m : Mesh, (Record.initial : RectMesh).buildMesh = .ok m ∧ m.validate = .ok ()) ∧
    (∃ s n, (Record.initial : HeightGrid).sampler = .ok s ∧ s.pointNormal 1 1 = .ok n) ∧
    (∃ e, thinGrid.buildMesh = .error e ∧ e.fault ≠ .loneSample 0 0 ∧
      HoldsError (Inspect.findings thinGrid).notes) ∧
    (∃ e, plainArray.buildMesh = .error e ∧ HoldsError (Inspect.findings plainArray).notes) ∧
    (∃ m : Mesh, (VertexArray.mk .empty .empty .empty).buildMesh = .ok m ∧ m.validate = .ok ()) ∧
    Inspect.findings strayArray = .note .warn "vertex array is empty" ∧
      ¬ ∃ m, strayArray.buildMesh = .ok m := by
  obtain ⟨hrects, hgrids, harrays⟩ := sources_built_as_judged
  refine ⟨?_, ?_, ?_, ?_, ?_, ?_, ?_⟩
  · have hok : (Record.initial : RectMesh).buildMesh.isOk = true := by decide +kernel
    obtain ⟨m, hm⟩ := isOk_iff.1 hok
    exact ⟨m, hm, (hrects _).validate m hm⟩
  · obtain ⟨n, hn⟩ := (hgrids Record.initial).2.2 _ rfl 1 1 (by decide) (by decide)
    exact ⟨_, n, rfl, hn⟩
  · have hfailed : thinGrid.buildMesh.isOk = false := by decide
    obtain ⟨e, he⟩ := isOk_eq_false.1 hfailed
    obtain ⟨hjudged, hlone, -⟩ := hgrids thinGrid
    exact ⟨e, he, hlone e he 0 0, hjudged.fails_iff.1 ⟨e, he⟩⟩
  · have hfailed : plainArray.buildMesh.isOk = false := by decide
    obtain ⟨e, he⟩ := isOk_eq_false.1 hfailed
    exact ⟨e, he, ((harrays plainArray).1 (by decide)).fails_iff.1 ⟨e, he⟩⟩
  · obtain ⟨-, hempty, hvalid⟩ := harrays ⟨.empty, .empty, .empty⟩
    obtain ⟨m, hm⟩ := (hempty rfl).2.2 ⟨rfl, rfl⟩
    exact ⟨m, hm, hvalid m hm⟩
  · exact ((harrays strayArray).2.1 rfl).1
  · intro hbuilt
    have hnone := (((harrays strayArray).2.1 rfl).2.1 hbuilt).1
    exact absurd hnone (by decide)

end MapDocument
