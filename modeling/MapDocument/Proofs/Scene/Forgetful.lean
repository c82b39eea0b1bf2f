import MapDocument.Catalog.Basic
import MapDocument.Proofs.Node.Atomic
import MapDocument.Proofs.Node.Load
import MapDocument.Proofs.Node.Reload
/-!
# Scene — loads that forget what was there

A map, and every record in it but one, is after a load what a fresh one
would be. The exception is a render unit whose mesh is given as null: the
variant that holds the mesh is asked whether it holds one. Render units only
occur in lists, which load their items into fresh nodes, so no map is asked.
-/

namespace MapDocument

/-! ## Records -/

instance : Node.Forgetful Aabb := .ofFields
instance : Node.Forgetful Sphere := .ofFields
instance : Node.Forgetful Triangle := .ofFields
instance : Node.Forgetful TriangleSoup := .ofFields
instance : Node.Forgetful RectMesh := .ofFields
instance : Node.Forgetful HeightGrid := .ofFields
instance : Node.Forgetful VertexArray := .ofFields
instance : Node.Forgetful Material := .ofFields
instance : Node.Forgetful Transform := .ofFields
instance : Node.Forgetful StaticActor := .ofFields
instance : Node.Forgetful EmbeddedModel := .ofFields
instance : Node.Forgetful ImportedModel := .ofFields
instance : Node.Forgetful WaterPlane := .ofFields
instance : Node.Forgetful PointLight := .ofFields
instance : Node.Forgetful Metadata := .ofFields
instance : Node.Forgetful MapChunk := .ofFields
instance : Node.Forgetful Lamp := .ofFields
instance : Node.Forgetful Tagged := .ofFields
instance : Node.Forgetful Nothing := .ofFields
instance : Node.Forgetful Positive := .ofFields
instance : Node.Forgetful Label := .ofFields

/-- All records forget what they held, but for render units. -/
theorem NodeType.forgetful {t : NodeType} (hrecord : t.record?.isSome = true)
    (ht : t ≠ .renderUnit) : Node.Forgetful t.Carrier := by
  cases t with
  | renderUnit => exact absurd rfl ht
  | single | int32 | bool | vec3 | quaternion | identifier | floatBuffer | bare | variant | list =>
    cases hrecord
  | _ => infer_instance

/-! ## Render units -/

namespace RenderUnit

/-- The text form gives the mesh, and gives it as null. -/
def MeshIsNull (j : Json) : Prop :=
  ∃ members, j = .object members ∧ members.lookup "mesh" = some .null

/-- The mesh forgets what it held where it is not given as null. -/
theorem eval_load_mesh {mesh? : Option Json} (h : mesh? ≠ some .null)
    (initial mesh mesh' : Option MeshSource) :
    Edit.eval ((field "mesh" initial).load mesh?) mesh =
      Edit.eval ((field "mesh" initial).load mesh?) mesh' := by
  cases mesh? with
  | none => rfl
  | some j =>
    have hj : j ≠ .null := fun hnull => h (congrArg some hnull)
    have hmesh := (Variant.eval_load hj mesh).trans (Variant.eval_load hj mesh').symm
    exact (Field.eval_load_some (field "mesh" initial) j mesh).trans
      ((congrArg (Error.locating (.field "mesh")) hmesh).trans
        (Field.eval_load_some (field "mesh" initial) j mesh').symm)

/-- Units whose meshes are loaded alike are loaded alike. -/
theorem eval_load_eq {members : List (String × Json)} {u w : RenderUnit}
    (h : ∀ initial : Option MeshSource,
      Edit.eval ((field "mesh" initial).load (members.lookup "mesh")) u.mesh =
        Edit.eval ((field "mesh" initial).load (members.lookup "mesh")) w.mesh) :
    Edit.eval (Node.load (.object members)) u = Edit.eval (Node.load (.object members)) w := by
  have hmaterial := Field.eval_load_eq (f := field "material" (Record.initial : Material))
    (inferInstanceAs (Node.Forgetful Material)) (members.lookup "material") u.material w.material
  exact Record.eval_load_congr ⟨h _, hmaterial, trivial⟩

/-- **A render unit forgets what it held where its mesh is not given as null.** -/
theorem eval_load_eq_ofJson {j : Json} (h : ¬ MeshIsNull j) (u : RenderUnit) :
    Edit.eval (Node.load j) u = Node.ofJson j := by
  cases j with
  | object members =>
    exact eval_load_eq fun initial =>
      eval_load_mesh (fun hnull => h ⟨members, rfl, hnull⟩) initial _ _
  | _ => rfl

/-- A mesh that is set cannot be given as null: the unit is refused at its mesh, and
stays what it was. -/
theorem load_refused_of_isSome {j : Json} (h : MeshIsNull j) {u : RenderUnit}
    (hu : u.mesh.isSome = true) :
    Node.load j u =
      .error ⟨.alreadySet ["Rect", "HeightGrid", "VertexArray"], [.field "mesh"]⟩ u := by
  obtain ⟨members, rfl, hnull⟩ := h
  obtain ⟨source, hsource⟩ := Option.isSome_iff_exists.1 hu
  have hmesh : (field "mesh" (some (MeshSource.rect Record.initial))).load
      (members.lookup "mesh") u.mesh =
        .error ⟨.alreadySet ["Rect", "HeightGrid", "VertexArray"], [.field "mesh"]⟩ u.mesh := by
    rw [hnull, hsource]
    rfl
  have hfields : Field.loadAll members (Record.fields RenderUnit) (Record.split u) =
      .error ⟨.alreadySet ["Rect", "HeightGrid", "VertexArray"], [.field "mesh"]⟩
        (Record.split u) :=
    Field.loadAll_cons_of_error hmesh _
  refine Record.load_eq_error.2 ⟨rfl, .inr ⟨members, u, rfl, ?_⟩⟩
  rw [Record.loadFields, hfields]
  rfl

/-- A mesh that is not set stays so where it is given as null, whether or not the
material can be loaded. -/
theorem mesh_held_of_isNull {j : Json} (h : MeshIsNull j) {u : RenderUnit} (hu : u.mesh = none) :
    (Edit.held ((Node.load j : Edit RenderUnit Unit) u)).mesh = none := by
  cases hload : (Node.load j : Edit RenderUnit Unit) u with
  | error e w =>
    rw [Record.atomic RenderUnit j hload]
    exact hu
  | ok x w =>
    obtain ⟨members, rfl, hnull⟩ := h
    obtain ⟨⟨mesh, material, ⟨⟩⟩, hfields, rfl⟩ := Record.load_object_eq_ok.1 hload
    obtain ⟨hmesh, -⟩ := Field.loadAll_cons_eq_ok.1 hfields
    have hnone : (field "mesh" (some (MeshSource.rect Record.initial))).load (some .null) none =
        .ok () mesh := by
      rw [← hnull, ← hu]
      exact hmesh
    cases hnone
    rfl

/-- Units whose meshes are not set are loaded alike. -/
theorem eval_load_of_mesh_eq_none {u w : RenderUnit} (hu : u.mesh = none) (hw : w.mesh = none)
    (j : Json) : Edit.eval (Node.load j) u = Edit.eval (Node.load j) w := by
  cases j with
  | object members => exact eval_load_eq fun initial => by rw [hu, hw]
  | _ => rfl

end RenderUnit

/-! ## Maps -/

/-- **A load does not depend on what the node held before.** A map, and every other record but
a render unit, becomes the tree that a fresh one becomes, or is refused with the same error; so
does a list, even of render units. A render unit whose mesh is given as null is refused at its
mesh, and stays as it was, if it has one; if it has none it keeps none, whether or not the rest is
loaded, and forgets everything else. Any other text form finds it as forgetful as the rest. -/
theorem NodeType.load_forgets :
    (∀ (j : Json) (a : MapChunk), Edit.eval (Node.load j) a = Node.ofJson j) ∧
    (∀ t : NodeType, t.record?.isSome = true → t ≠ .renderUnit →
      ∀ (j : Json) (a : t.Carrier), Edit.eval (Node.load j) a = Node.ofJson j) ∧
    (∀ (t : NodeType) (j : Json) (a : List t.Carrier),
      Edit.eval (Node.load j) a = Node.ofJson j) ∧
    (∀ (j : Json) (a : RenderUnit), ¬ RenderUnit.MeshIsNull j →
      Edit.eval (Node.load j) a = Node.ofJson j) ∧
    ∀ (j : Json) (a : RenderUnit), RenderUnit.MeshIsNull j →
      (a.mesh.isSome = true → Node.load j a =
        .error ⟨.alreadySet ["Rect", "HeightGrid", "VertexArray"], [.field "mesh"]⟩ a) ∧
      (a.mesh = none → (Edit.held ((Node.load j : Edit RenderUnit Unit) a)).mesh = none ∧
        ∀ b : RenderUnit, b.mesh = none →
          Edit.eval (Node.load j) a = Edit.eval (Node.load j) b) := by
  refine ⟨?_, ?_, ?_, ?_, ?_⟩
  · exact Node.Forgetful.eval_load
  · intro t hrecord ht
    exact (forgetful hrecord ht).eval_load
  · intro t
    exact Node.Forgetful.list.eval_load
  · intro j a hj
    exact RenderUnit.eval_load_eq_ofJson hj a
  · intro j a hj
    refine ⟨RenderUnit.load_refused_of_isSome hj, fun ha => ⟨?_, fun b hb => ?_⟩⟩
    · exact RenderUnit.mesh_held_of_isNull hj ha
    · exact RenderUnit.eval_load_of_mesh_eq_none ha hb j

/-- A plane becomes a fresh one, and so does a unit that holds a grid; a null mesh is refused by a
unit that has one, and a unit that has none takes on a material and keeps none. -/
theorem NodeType.load_forgets_mesh :
    Edit.eval (Node.load (.object [])) ({ (Record.initial : WaterPlane) with width := 2 }) =
      .ok (Record.initial : WaterPlane) ∧
    Edit.eval (Node.load (.object []))
        (⟨some (.heightGrid Record.initial), Record.initial⟩ : RenderUnit) =
      .ok (Record.initial : RenderUnit) ∧
    Node.load (.object [("mesh", .null)]) (Record.initial : RenderUnit) =
      .error ⟨.alreadySet ["Rect", "HeightGrid", "VertexArray"], [.field "mesh"]⟩ Record.initial ∧
    (Edit.held ((Node.load (.object [("material", .object [("shininess", .ofInt 1)]),
      ("mesh", .null)]) : Edit RenderUnit Unit) ⟨none, Record.initial⟩)).mesh = none := by
  refine ⟨?_, ?_, ?_, ?_⟩
  · exact load_forgets.2.1 .waterPlane rfl (by decide) (.object []) _
  · have hmesh : ¬ RenderUnit.MeshIsNull (.object []) := by
      rintro ⟨members, h, hnull⟩
      cases h
      cases hnull
    exact load_forgets.2.2.2.1 (.object []) _ hmesh
  · exact (load_forgets.2.2.2.2 _ Record.initial ⟨_, rfl, rfl⟩).1 rfl
  · exact ((load_forgets.2.2.2.2 _ ⟨none, Record.initial⟩ ⟨_, rfl, rfl⟩).2 rfl).1

end MapDocument
