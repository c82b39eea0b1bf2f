import MapDocument.Proofs.Geometry.Shapes
import MapDocument.Proofs.Geometry.Sources
import MapDocument.Proofs.Scene.Manifest
import MapDocument.Proofs.Scene.Separation
/-!
# Scene — what the shapes of a model fail for

An embedded model in which no error was found has meshes to derive its shapes
from, but for the vertex arrays without vertices. Once they are derived, the
model fails for its manifest, for a part of a shape that is not finite, or for
a soup of too many triangles.
-/

namespace MapDocument

namespace RenderUnit

variable {u : RenderUnit}

/-- A unit without errors has a mesh, unless that comes from a vertex array
without vertices. -/
theorem failsFor_buildMesh (h : (Inspect.findings u).Harmless) :
    FailsFor u.buildMesh fun fault => ∃ a, u.mesh = some (.vertexArray a) ∧ a.Stray fault := by
  obtain ⟨s, hs, hsound⟩ := exists_mesh h
  have hbuild : u.buildMesh = s.buildMesh := by rw [buildMesh, hs]
  rw [hbuild]
  refine (MeshSource.failsFor_buildMesh hsound).congr fun fault => ?_
  simp [MeshSource.Stray, hs]

/-- The mesh is whole, and has vertices but for the same exception. -/
theorem whole_of_buildMesh {m : Mesh} (h : (Inspect.findings u).Harmless)
    (hm : u.buildMesh = .ok m) :
    m.Whole ∧ (m.vertices = [] ↔ ∃ a, u.mesh = some (.vertexArray a) ∧ a.vertices.values = []) := by
  obtain ⟨s, hs, hsound⟩ := exists_mesh h
  have hbuild : s.buildMesh = .ok m := by rw [← hm, buildMesh, hs]
  obtain ⟨hwhole, hempty⟩ := MeshSource.whole_of_buildMesh hsound hbuild
  refine ⟨hwhole, hempty.trans ?_⟩
  simp [MeshSource.IsEmptyArray, hs]

end RenderUnit

namespace EmbeddedModel

/-! ## Meshes -/

section Meshes

variable {us : List RenderUnit} {index : Nat} {meshes : List Mesh}

/-- The meshes of units fail for what one of them fails for. -/
theorem failsFor_meshesOf (h : ∀ u ∈ us, (Inspect.findings u).Harmless) :
    FailsFor (meshesOf index us) fun fault =>
      ∃ u ∈ us, ∃ a, u.mesh = some (.vertexArray a) ∧ a.Stray fault := by
  induction us generalizing index with
  | nil => exact (FailsFor.never ⟨[], rfl⟩).congr (by simp)
  | cons u us ih =>
    have hhead := ((u.failsFor_buildMesh (h u List.mem_cons_self)).locating
      (.index index)).locating (.field "render_units")
    have htail : FailsFor (meshesOf (index + 1) us) fun fault =>
        ∃ u ∈ us, ∃ a, u.mesh = some (.vertexArray a) ∧ a.Stray fault :=
      ih fun v hv => h v (List.mem_cons_of_mem u hv)
    exact (hhead.bind fun mesh _ => htail.map (mesh :: ·)).congr (by simp)

/-- **There is one whole mesh for each unit**, and one of them has no vertices
where one of the units is a vertex array without vertices. -/
theorem whole_of_meshesOf (h : ∀ u ∈ us, (Inspect.findings u).Harmless)
    (hmeshes : meshesOf index us = .ok meshes) :
    meshes.length = us.length ∧ (∀ m ∈ meshes, m.Whole) ∧
      ((∃ m ∈ meshes, m.vertices = []) ↔
        ∃ u ∈ us, ∃ a, u.mesh = some (.vertexArray a) ∧ a.vertices.values = []) := by
  induction us generalizing index meshes with
  | nil =>
    cases hmeshes
    simp
  | cons u us ih =>
    obtain ⟨mesh, hmesh, hmeshes⟩ := bind_eq_ok.1 hmeshes
    obtain ⟨rest, hrest, hmeshes⟩ := bind_eq_ok.1 hmeshes
    cases hmeshes
    obtain ⟨hwhole, hempty⟩ := u.whole_of_buildMesh (h u List.mem_cons_self)
      (locating_eq_ok.1 (locating_eq_ok.1 hmesh))
    obtain ⟨hlength, hwholes, hempties⟩ := ih (fun v hv => h v (List.mem_cons_of_mem u hv)) hrest
    refine ⟨congrArg Nat.succ hlength, ?_, ?_⟩
    · intro m hm
      rcases List.mem_cons.1 hm with rfl | hm
      · exact hwhole
      · exact hwholes m hm
    · simp only [List.mem_cons, exists_eq_or_imp, hempty, hempties]

/-- The triangles of whole meshes can be collected. -/
theorem exists_growSoup (soup : TriangleSoup) (h : ∀ m ∈ meshes, m.Whole) :
    ∃ all, growSoup soup meshes = .ok all := by
  induction meshes generalizing soup with
  | nil => exact ⟨soup, rfl⟩
  | cons m meshes ih =>
    obtain ⟨found, hfound⟩ := Mesh.exists_soup (h m List.mem_cons_self)
    obtain ⟨all, hall⟩ := ih (soup ++ found) fun n hn => h n (List.mem_cons_of_mem m hn)
    exact ⟨all, bind_eq_ok.2 ⟨found, hfound, hall⟩⟩

/-- Shapes are derived from whole meshes unless one of them has no vertices. -/
theorem failsFor_shapes {rotating detailed : Bool} (hne : meshes ≠ [])
    (h : ∀ m ∈ meshes, m.Whole) :
    FailsFor
      (do
        let bounding ← Mesh.bound rotating meshes
        if detailed then return (bounding, some (← growSoup TriangleSoup.empty meshes))
        else return (bounding, none))
      fun fault => ∃ m ∈ meshes, m.vertices = [] ∧ fault = .emptyMesh := by
  have hsoup (bounding : BoundingVolume) : FailsFor
      (do
        if detailed then return (bounding, some (← growSoup TriangleSoup.empty meshes))
        else return (bounding, none)) fun _ => False := by
    refine FailsFor.never ?_
    cases detailed with
    | true =>
      obtain ⟨soup, hsoup⟩ := exists_growSoup TriangleSoup.empty h
      exact ⟨_, bind_eq_ok.2 ⟨soup, hsoup, rfl⟩⟩
    | false => exact ⟨_, rfl⟩
  exact ((Mesh.failsFor_bound hne h).bind fun bounding _ => hsoup bounding).congr (by simp)

end Meshes

/-! ## Shapes -/

variable {m : EmbeddedModel}

/-- The model has a unit whose mesh comes from an array without vertices. -/
def EmptyArray (m : EmbeddedModel) (a : VertexArray) : Prop :=
  (∃ u ∈ m.renderUnits, u.mesh = some (.vertexArray a)) ∧ a.vertices.values = []

/-- What the units of a model tell about it. -/
theorem exists_emptyArray_iff :
    (∃ a, m.EmptyArray a) ↔
      ∃ u ∈ m.renderUnits, ∃ a, u.mesh = some (.vertexArray a) ∧ a.vertices.values = [] := by
  constructor
  · rintro ⟨a, ⟨u, hu, ha⟩, hvertices⟩
    exact ⟨u, hu, a, ha, hvertices⟩
  · rintro ⟨u, hu, a, ha, hvertices⟩
    exact ⟨a, ⟨u, hu, ha⟩, hvertices⟩

/-- Without an error there is something to derive the shapes from. -/
theorem renderUnits_of_harmless (h : (Inspect.findings m).Harmless) :
    m.renderUnits ≠ [] ∧ ∀ u ∈ m.renderUnits, (Inspect.findings u).Harmless := by
  obtain ⟨hfirst, -⟩ := Findings.harmless_append.1 h
  obtain ⟨hfirst, hunits⟩ := Findings.harmless_append.1 hfirst
  obtain ⟨hfirst, -⟩ := Findings.harmless_append.1 hfirst
  obtain ⟨-, hsome⟩ := Findings.harmless_append.1 hfirst
  refine ⟨?_, Findings.harmless_indexed.1 (Findings.harmless_under.1 hunits)⟩
  intro hnil
  have hempty : m.renderUnits.isEmpty = true := List.isEmpty_iff.2 hnil
  exact Findings.harmless_noteIf.1 hsome hempty rfl

/-- **Shapes can be derived unless there is an array without vertices.** -/
theorem failsFor_deriveColliders (h : (Inspect.findings m).Harmless) :
    FailsFor m.deriveColliders fun fault =>
      ∃ a, m.EmptyArray a ∧ (a.Stray fault ∨ fault = .emptyMesh) := by
  obtain ⟨hne, hsound⟩ := renderUnits_of_harmless h
  have hsome : ¬ m.renderUnits.isEmpty = true := by simpa using hne
  unfold deriveColliders
  rw [if_neg hsome]
  have hmeshes : FailsFor m.buildMeshes fun fault =>
      ∃ u ∈ m.renderUnits, ∃ a, u.mesh = some (.vertexArray a) ∧ a.Stray fault :=
    failsFor_meshesOf hsound
  refine (hmeshes.bind (C := fun fault => (∃ a, m.EmptyArray a) ∧ fault = .emptyMesh)
    fun meshes hbuild => ?_).congr fun fault => ?_
  · -- as many meshes as units, so there is one to start from
    obtain ⟨hlength, hwholes, hempty⟩ := whole_of_meshesOf hsound hbuild
    have hsome : meshes ≠ [] := by
      rintro rfl
      exact hne (List.length_eq_zero_iff.1 hlength.symm)
    refine (failsFor_shapes hsome hwholes).congr fun fault => ?_
    rw [exists_emptyArray_iff, ← hempty]
    constructor
    · rintro ⟨mesh, hmesh, hvertices, hfault⟩
      exact ⟨⟨mesh, hmesh, hvertices⟩, hfault⟩
    · rintro ⟨⟨mesh, hmesh, hvertices⟩, hfault⟩
      exact ⟨mesh, hmesh, hvertices, hfault⟩
  · constructor
    · -- an array that does not build a mesh has no vertices either
      rintro (⟨u, hu, a, ha, hstray⟩ | ⟨⟨a, ha⟩, hfault⟩)
      · exact ⟨a, ⟨⟨u, hu, ha⟩, hstray.1⟩, .inl hstray⟩
      · exact ⟨a, ha, .inr hfault⟩
    · rintro ⟨a, ha, hstray | hfault⟩
      · obtain ⟨⟨u, hu, hmesh⟩, -⟩ := ha
        exact .inl ⟨u, hu, a, hmesh, hstray⟩
      · exact .inr ⟨⟨a, ha⟩, hfault⟩

/-! ## Binary form -/

/-- A part of one of the shapes, which is not finite. -/
def InfinitePart (m : EmbeddedModel) (xs : List Single) : Prop :=
  ∃ shape soup?, m.deriveColliders = .ok (shape, soup?) ∧
    (xs ∈ shape.parts ∨ ∃ soup, soup? = some soup ∧ xs ∈ soup.parts) ∧ ∃ x ∈ xs, x.isFinite = false

/-- The number of triangles of a soup, which is too great. -/
def LongSoup (m : EmbeddedModel) (n : Nat) : Prop :=
  ∃ shape soup, m.deriveColliders = .ok (shape, some soup) ∧ n = soup.triangles.length ∧
    Manifest.greatestCount < n

/-- What the binary form can be refused for. -/
def Blames (m : EmbeddedModel) (fault : Fault) : Prop :=
  (∃ a, m.EmptyArray a ∧ (a.Stray fault ∨ fault = .emptyMesh)) ∨ m.manifest.Blames fault ∨
    (∃ xs, m.InfinitePart xs ∧ fault = .notFinite xs) ∨ ∃ n, m.LongSoup n ∧ fault = .tooLong n

/-- The end of a model fails for the soup that it may hold. -/
theorem failsFor_encodeSoup (soup? : Option TriangleSoup) :
    FailsFor (encodeSoup soup?) fun fault =>
      ∃ soup, soup? = some soup ∧
        ((Manifest.count soup.triangles.length).Blames fault ∨ Fault.Infinite soup.parts fault) := by
  cases soup? with
  | some soup => exact (failsFor_encodeTagged soup.failsFor).congr (by simp)
  | none => exact (FailsFor.never ⟨_, rfl⟩).congr (by simp)

/-- The fields that are written fail for their manifest. -/
theorem failsFor_fields (h : Node.Loaded m) (hsound : (Inspect.findings m).Harmless) :
    FailsFor (Node.encode m.name) (Manifest.name m.name).Blames ∧
      FailsFor (Node.encode m.renderUnits) (Manifest.list RenderUnit.manifest m.renderUnits).Blames ∧
      FailsFor (Node.encode m.staticActors)
        (Manifest.list StaticActor.manifest m.staticActors).Blames := by
  obtain ⟨hname, hunits, hactors, -, -⟩ := Record.loadedAll h
    (fun f hf => (Field.Regular.value f hf).reloads.encoded)
  have hunit := (renderUnits_of_harmless hsound).2
  refine ⟨Node.Plain.failsFor hname, ?_, Node.Plain.failsFor hactors⟩
  exact (Node.failsFor_list fun u hu => u.failsFor (hunits.item u hu) (hunit u hu)).congr
    fun _ => Manifest.blames_list.symm

/-- What the shapes are to blame for once they are derived. -/
theorem blames_shapes_iff {shape : BoundingVolume} {soup? : Option TriangleSoup} {fault : Fault}
    (hderive : m.deriveColliders = .ok (shape, soup?)) :
    (Fault.Infinite shape.parts fault ∨
        ∃ soup, soup? = some soup ∧
          ((Manifest.count soup.triangles.length).Blames fault ∨
            Fault.Infinite soup.parts fault)) ↔
      (∃ xs, m.InfinitePart xs ∧ fault = .notFinite xs) ∨
        ∃ n, m.LongSoup n ∧ fault = .tooLong n := by
  simp only [Manifest.blames_count]
  constructor
  · rintro (⟨xs, hxs, hinf, hfault⟩ | ⟨soup, rfl, ⟨hlong, hfault⟩ | ⟨xs, hxs, hinf, hfault⟩⟩)
    · exact .inl ⟨xs, ⟨shape, soup?, hderive, .inl hxs, hinf⟩, hfault⟩
    · exact .inr ⟨_, ⟨shape, soup, hderive, rfl, hlong⟩, hfault⟩
    · exact .inl ⟨xs, ⟨shape, some soup, hderive, .inr ⟨soup, rfl, hxs⟩, hinf⟩, hfault⟩
  · rintro (⟨xs, ⟨_, _, hderive', hxs, hinf⟩, hfault⟩ | ⟨n, ⟨_, soup, hderive', rfl, hlong⟩, hfault⟩)
    · rw [hderive] at hderive'
      cases hderive'
      rcases hxs with hxs | ⟨soup, rfl, hxs⟩
      · exact .inl ⟨xs, hxs, hinf, hfault⟩
      · exact .inr ⟨soup, rfl, .inr ⟨xs, hxs, hinf, hfault⟩⟩
    · rw [hderive] at hderive'
      cases hderive'
      exact .inr ⟨soup, rfl, .inl ⟨hlong, hfault⟩⟩

/-- **An embedded model without errors fails for an array without vertices, for
its manifest, or for the shapes that are derived.** -/
theorem failsFor (h : Node.Loaded m) (hsound : (Inspect.findings m).Harmless) :
    FailsFor (Node.encode m) m.Blames := by
  obtain ⟨hname, hunits, hactors⟩ := failsFor_fields h hsound
  refine (failsFor_deriveColliders hsound).bind fun (shape, soup?) hderive => ?_
  have hparts :=
    (hname.locating (.field "name")).bind fun name _ =>
    (hunits.locating (.field "render_units")).bind fun units _ =>
    (hactors.locating (.field "static_actors")).bind fun actors _ =>
    shape.failsFor.bind fun bounding _ =>
    (failsFor_encodeSoup soup?).bind fun soup _ =>
    FailsFor.never ⟨name ++ (units ++ (actors ++ (bounding ++ soup))), rfl⟩
  have hblame := hparts.congr (C := fun fault => m.manifest.Blames fault ∨
      (∃ xs, m.InfinitePart xs ∧ fault = .notFinite xs) ∨
        ∃ n, m.LongSoup n ∧ fault = .tooLong n) fun fault => by
    rw [← blames_shapes_iff hderive, manifest, Manifest.blames_append, Manifest.blames_append,
      or_assoc, or_assoc, or_false]
  -- how the soup is written is `encodeSoup` only once it is known whether there is one
  cases soup? with
  | some soup => exact hblame
  | none => exact hblame

end EmbeddedModel

end MapDocument
