import MapDocument.Proofs.Geometry.Box
import MapDocument.Proofs.Geometry.Stream
import MapDocument.Proofs.Scene.Separation
/-!
# Scene — the shapes behind the fields of a model

Behind its fields an embedded model has the shape that bounds the meshes of
its units, a sphere if one of its actors is turned and a box otherwise, and
then, if asked for, every triangle of these meshes. `encode_shapes` says of
both, down to the bytes, how they come from the meshes.
-/

namespace MapDocument

/-! ## Bounding shapes -/

/-- A shape after its code is the two bytes of the code and then the shape. -/
theorem encodeTagged_eq_ok {α : Type} [Collider α] {shape : α} {p : Bytes}
    (h : encodeTagged shape = .ok p) :
    ∃ q, Node.encode shape = .ok q ∧
      p = Bytes.ofInt16 (Int16.ofInt (Collider.kind α).code.toNat) ++ q := by
  obtain ⟨code, q, hcode, hq, rfl⟩ := append_eq_ok.1 h
  unfold Bytes.ofTypeCode Bytes.ofInt16? at hcode
  split at hcode
  · cases hcode
    exact ⟨q, hq, rfl⟩
  · cases hcode

/-- A sphere around the origin is written as its code, no offset and its radius. -/
theorem Sphere.encodeTagged_eq_ok {radius : Single} {p : Bytes}
    (h : BoundingVolume.encodeTagged (.sphere ⟨Vec3.zero, radius⟩) = .ok p) :
    radius.isFinite = true ∧ p = [1, 0] ++ (List.replicate 12 0 ++ Bytes.ofSingle radius) := by
  obtain ⟨q, hq, rfl⟩ := MapDocument.encodeTagged_eq_ok h
  obtain ⟨hfinite, rfl⟩ := Sphere.writes _ q hq
  refine ⟨hfinite radius (List.mem_append_right _ List.mem_cons_self), ?_⟩
  have hcode : Bytes.ofInt16 (Int16.ofInt ColliderKind.sphere.code.toNat) = [1, 0] := by decide
  have hzero : Vec3.zero.toList.flatMap Bytes.ofSingle = List.replicate 12 0 := by decide
  rw [List.flatMap_append, hzero, List.flatMap_singleton]
  exact congrArg (· ++ _) hcode

/-- A box is written as its code and its corners. -/
theorem Aabb.encodeTagged_eq_ok {box : Aabb} {p : Bytes}
    (h : BoundingVolume.encodeTagged (.aabb box) = .ok p) :
    (∀ x ∈ box.min.toList ++ box.max.toList, x.isFinite = true) ∧
      p = [2, 0] ++ (box.min.toList ++ box.max.toList).flatMap Bytes.ofSingle := by
  obtain ⟨q, hq, rfl⟩ := MapDocument.encodeTagged_eq_ok h
  obtain ⟨hfinite, rfl⟩ := box.writes q hq
  have hcode : Bytes.ofInt16 (Int16.ofInt ColliderKind.aabb.code.toNat) = [2, 0] := by decide
  exact ⟨hfinite, congrArg (· ++ _) hcode⟩

namespace EmbeddedModel

variable {m : EmbeddedModel} {p : Bytes}

/-! ## Meshes of the units -/

/-- The meshes of units are what each of them builds, in order. -/
theorem mapM_of_meshesOf {us : List RenderUnit} {index : Nat} {meshes : List Mesh}
    (h : meshesOf index us = .ok meshes) : us.mapM RenderUnit.buildMesh = .ok meshes := by
  induction us generalizing index meshes with
  | nil => exact h
  | cons u us ih =>
    obtain ⟨mesh, hmesh, h⟩ := bind_eq_ok.1 h
    obtain ⟨rest, hrest, h⟩ := bind_eq_ok.1 h
    cases h
    have hbuild : u.buildMesh = .ok mesh := locating_eq_ok.1 (locating_eq_ok.1 hmesh)
    rw [List.mapM_cons, hbuild, ih hrest]
    rfl

/-- **A soup that is grown by meshes is grown by their vertex streams**, in
order, and each of these holds whole triangles. -/
theorem growSoup_eq_ok {meshes : List Mesh} {soup all : TriangleSoup}
    (h : growSoup soup meshes = .ok all) :
    (∀ m ∈ meshes, m.vertices.length % 9 = 0) ∧
      all.toList = soup.toList ++ meshes.flatMap Mesh.vertices := by
  induction meshes generalizing soup with
  | nil =>
    cases h
    exact ⟨nofun, (List.append_nil _).symm⟩
  | cons m meshes ih =>
    obtain ⟨found, hfound, h⟩ := bind_eq_ok.1 h
    obtain ⟨hwhole, hstream⟩ := Mesh.soup_eq_ok hfound
    obtain ⟨hwholes, hall⟩ := ih h
    refine ⟨?_, ?_⟩
    · intro n hn
      rcases List.mem_cons.1 hn with rfl | hn
      · exact hwhole
      · exact hwholes n hn
    · rw [hall, TriangleSoup.toList_append, hstream, List.flatMap_cons, List.append_assoc]

/-- Shapes that are derived come from the meshes of all units. -/
theorem deriveColliders_eq_ok {shape : BoundingVolume} {soup? : Option TriangleSoup}
    (h : m.deriveColliders = .ok (shape, soup?)) :
    ∃ meshes, m.renderUnits.mapM RenderUnit.buildMesh = .ok meshes ∧
      Mesh.bound m.hasRotatingActor meshes = .ok shape ∧
      (m.detailedCollider = false → soup? = none) ∧
      (m.detailedCollider = true → ∃ soup, soup? = some soup ∧
        growSoup TriangleSoup.empty meshes = .ok soup) := by
  unfold deriveColliders at h
  split at h
  · cases h
  · obtain ⟨meshes, hmeshes, h⟩ := bind_eq_ok.1 h
    obtain ⟨bounding, hbound, h⟩ := bind_eq_ok.1 h
    refine ⟨meshes, mapM_of_meshesOf hmeshes, ?_⟩
    split at h
    · rename_i hdetailed
      obtain ⟨soup, hsoup, h⟩ := bind_eq_ok.1 h
      cases h
      exact ⟨hbound, by simp [hdetailed], fun _ => ⟨soup, rfl, hsoup⟩⟩
    · rename_i hdetailed
      cases h
      exact ⟨hbound, fun _ => rfl, fun h => absurd h hdetailed⟩

/-! ## Binary form -/

/-- The bytes of the shape that bounds the meshes of a model. -/
structure BoundBytes (m : EmbeddedModel) (meshes : List Mesh) (bytes : Bytes) : Prop where
  /-- If an actor is turned: a code, a center that is the origin, and a finite radius. -/
  sphere : (∃ a ∈ m.staticActors, a.transform.orientation.equals .identity = false) →
    ∃ radius, Mesh.bound true meshes = .ok (.sphere ⟨Vec3.zero, radius⟩) ∧
      radius.isFinite = true ∧ bytes = [1, 0] ++ (List.replicate 12 0 ++ Bytes.ofSingle radius)
  /-- If none is: a code, and two finite corners, in order on every axis. -/
  box : (∀ a ∈ m.staticActors, a.transform.orientation.equals .identity = true) →
    ∃ box : Aabb, Mesh.bound false meshes = .ok (.aabb box) ∧
      (∀ x ∈ box.min.toList ++ box.max.toList, x.isFinite = true) ∧
      (box.min.x.le box.max.x = true ∧ box.min.y.le box.max.y = true ∧
        box.min.z.le box.max.z = true) ∧
      bytes = [2, 0] ++ (box.min.toList ++ box.max.toList).flatMap Bytes.ofSingle

/-- The bytes of the triangles of the meshes of a model. -/
structure SoupBytes (m : EmbeddedModel) (meshes : List Mesh) (bytes : Bytes) : Prop where
  /-- The code for no triangles stands where none are asked for, and only there. -/
  none_iff : bytes = [0, 0] ↔ m.detailedCollider = false
  /-- Otherwise there is a code, the number of triangles, and the vertex streams of all
  meshes, one after the other and bit for bit. -/
  all : m.detailedCollider = true →
    ∃ count : Nat, 9 * count = (meshes.flatMap Mesh.vertices).length ∧ count < 2 ^ 31 ∧
      bytes = [4, 0] ++ (Bytes.ofInt32 (Int32.ofNat count) ++
        (meshes.flatMap Mesh.vertices).flatMap Bytes.ofSingle)
  /-- No triangle lies in two meshes. -/
  whole : m.detailedCollider = true → ∀ mesh ∈ meshes, mesh.vertices.length % 9 = 0

/-- A model turns where the orientation of an actor is not the identity. -/
theorem hasRotatingActor_iff : m.hasRotatingActor = true ↔
    ∃ a ∈ m.staticActors, a.transform.orientation.equals .identity = false := by
  simp [hasRotatingActor, StaticActor.isRotated, Quaternion.isIdentity]

/-- The shape that was derived, as bytes. -/
theorem boundBytes_of_bound {meshes : List Mesh} {shape : BoundingVolume}
    (hbound : Mesh.bound m.hasRotatingActor meshes = .ok shape) (h : shape.encodeTagged = .ok p) :
    m.BoundBytes meshes p := by
  constructor
  · intro hturned
    rw [hasRotatingActor_iff.2 hturned] at hbound
    obtain ⟨radius, rfl⟩ := Mesh.bound_true_eq_ok hbound
    obtain ⟨hfinite, hbytes⟩ := Sphere.encodeTagged_eq_ok h
    exact ⟨radius, hbound, hfinite, hbytes⟩
  · intro hstraight
    have hfalse : m.hasRotatingActor = false := by
      refine Bool.eq_false_iff.2 fun hturned => ?_
      obtain ⟨a, ha, hne⟩ := hasRotatingActor_iff.1 hturned
      rw [hstraight a ha] at hne
      cases hne
    rw [hfalse] at hbound
    obtain ⟨box, rfl, hordered⟩ := Mesh.bound_false_eq_ok hbound
    obtain ⟨hfinite, hbytes⟩ := Aabb.encodeTagged_eq_ok h
    exact ⟨box, hbound, hfinite, ⟨hordered.x.le_of_isFinite (hfinite _ (by simp [Vec3.toList])),
      hordered.y.le_of_isFinite (hfinite _ (by simp [Vec3.toList])),
      hordered.z.le_of_isFinite (hfinite _ (by simp [Vec3.toList]))⟩, hbytes⟩

/-- The triangles that were derived, as bytes. -/
theorem soupBytes_of_growSoup {meshes : List Mesh} {soup? : Option TriangleSoup}
    (hnone : m.detailedCollider = false → soup? = none)
    (hsome : m.detailedCollider = true → ∃ soup, soup? = some soup ∧
      growSoup TriangleSoup.empty meshes = .ok soup)
    (h : encodeSoup soup? = .ok p) : m.SoupBytes meshes p := by
  have hzero : encodeNoCollider = [0, 0] := by decide
  cases hdetailed : m.detailedCollider with
  | false =>
    rw [hnone hdetailed] at h
    cases h
    exact ⟨iff_of_true hzero hdetailed, by simp [hdetailed], by simp [hdetailed]⟩
  | true =>
    obtain ⟨soup, rfl, hsoup⟩ := hsome hdetailed
    obtain ⟨hwhole, hstream⟩ := growSoup_eq_ok hsoup
    obtain ⟨q, hq, rfl⟩ := encodeTagged_eq_ok h
    obtain ⟨hcount, -, rfl⟩ := TriangleSoup.encode_eq_ok hq
    have hall : soup.toList = meshes.flatMap Mesh.vertices := hstream
    have hcode : Bytes.ofInt16 (Int16.ofInt ColliderKind.triangleSoup.code.toNat) = [4, 0] := by
      decide
    refine ⟨iff_of_false ?_ (by simp [hdetailed]), fun _ => ⟨soup.triangles.length, ?_, hcount, ?_⟩,
      fun _ => hwhole⟩
    · intro heq
      have hfour : (4 : UInt8) :: _ = [0, 0] := (congrArg (· ++ _) hcode).symm.trans heq
      cases hfour
    · rw [← hall, TriangleSoup.length_toList]
    · rw [hall]
      exact congrArg (· ++ _) hcode

/-- **The shapes behind the fields of a model are those of its meshes.** A model that
is written is written as three of its fields, a shape that bounds the meshes its
units build, and their triangles if asked for. -/
theorem encode_shapes (h : Node.encode m = .ok p) :
    ∃ name units actors shape soup meshes,
      Node.encode m.name = .ok name ∧ Node.encode m.renderUnits = .ok units ∧
      Node.encode m.staticActors = .ok actors ∧
      p = name ++ (units ++ (actors ++ (shape ++ soup))) ∧
      m.renderUnits.mapM RenderUnit.buildMesh = .ok meshes ∧
      m.BoundBytes meshes shape ∧ m.SoupBytes meshes soup := by
  obtain ⟨bounding, soup?, name, units, actors, shape, soup, hderive, hname, hunits, hactors,
    hshape, hsoup, rfl⟩ := encode_eq_ok h
  obtain ⟨meshes, hmeshes, hbound, hnone, hsome⟩ := deriveColliders_eq_ok hderive
  exact ⟨name, units, actors, shape, soup, meshes, hname, hunits, hactors, rfl, hmeshes,
    boundBytes_of_bound hbound hshape, soupBytes_of_growSoup hnone hsome hsoup⟩

/-- A rectangle and a single triangle, with an actor that is turned. -/
def wedge : EmbeddedModel where
  name := Identifier.empty
  renderUnits := [Record.initial,
    { (Record.initial : RenderUnit) with
      mesh := some (.vertexArray ⟨⟨[0, 0, 0, 1, 0, 0, 0, 1, 0]⟩, ⟨List.replicate 6 0⟩,
        ⟨[0, 0, 1, 0, 0, 1, 0, 0, 1]⟩⟩) }]
  staticActors := [{ (Record.initial : StaticActor) with
    transform := ⟨Vec3.zero, ⟨0, 1, 0, 0⟩, 1⟩ }]
  detailedCollider := true

/-- It is written with a sphere, and with two triangles and one. -/
theorem encode_shapes_wedge : ∃ p fields radius stream,
    Node.encode wedge = .ok p ∧ radius.isFinite = true ∧ stream.length = 4 * 27 ∧
    p = fields ++ ([1, 0] ++ (List.replicate 12 0 ++ Bytes.ofSingle radius) ++
      ([4, 0] ++ (Bytes.ofInt32 3 ++ stream))) := by
  have hok : (Node.encode wedge).isOk = true := by decide +kernel
  obtain ⟨p, hp⟩ := isOk_iff.1 hok
  obtain ⟨name, units, actors, shape, soup, meshes, -, -, -, rfl, hmeshes, hshape, hsoup⟩ :=
    encode_shapes hp
  obtain ⟨radius, -, hfinite, rfl⟩ := hshape.sphere ⟨_, List.mem_singleton_self _, by decide⟩
  obtain ⟨count, hcount, -, rfl⟩ := hsoup.all rfl
  have hlength : (meshes.flatMap Mesh.vertices).length = 27 := by
    have hnumbers : (wedge.renderUnits.mapM RenderUnit.buildMesh).toOption.map
        (fun meshes => (meshes.flatMap Mesh.vertices).length) = some 27 := by decide +kernel
    rw [hmeshes] at hnumbers
    exact Option.some.inj hnumbers
  obtain rfl : count = 3 := by omega
  exact ⟨_, name ++ (units ++ actors), radius, (meshes.flatMap Mesh.vertices).flatMap Bytes.ofSingle,
    hp, hfinite, by rw [Bytes.length_flatMap_ofSingle, hlength], by simp⟩

end EmbeddedModel

end MapDocument
