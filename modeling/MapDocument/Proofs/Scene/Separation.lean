import MapDocument.Catalog.Basic
import MapDocument.Compile.Document
import MapDocument.Proofs.Node.Separation
import MapDocument.Proofs.Scene.Regular
/-!
# Scene — the binary form of a map gives the map back

No two maps share a binary form, nor is the binary form of one the beginning
of that of another, but for the version that a document declares, which is
not written. The regular types have this from their parts. An embedded model
has to be looked at: its last field is never written, and is read off the
code of what stands in its place, after a shape whose own code says how long
it is.

The values of a choice are told apart inside a variant, which writes the number
of the candidate before them. By themselves they are only when they belong to
the same candidate.
-/

namespace MapDocument

/-! ## Boxes, lamps and marks -/

theorem Aabb.separates : Separates (Node.encode : Aabb → Except Error Bytes) id :=
  Record.separates (fun _ => rfl) fun f hf => (Field.Regular.value f hf).separates

theorem Lamp.separates : Separates (Node.encode : Lamp → Except Error Bytes) id :=
  Record.separates (fun _ => rfl) fun f hf => (Field.Regular.value f hf).separates

theorem Tagged.separates : Separates (Node.encode : Tagged → Except Error Bytes) fun t => t := by
  rintro ⟨m⟩ ⟨n⟩ p q x y hm hn heq
  cases hm
  cases hn
  obtain ⟨hmark, hrest⟩ := List.append_inj heq rfl
  obtain rfl : m = n := Bytes.ofInt32_injective (List.append_cancel_left hmark)
  exact ⟨rfl, hrest⟩

/-! ## Shapes after their codes -/

section Shapes

variable {α β : Type} [Collider α] [Collider β] {a : α} {b : β} {p q x y : Bytes}

/-- The code before a shape says what kind of shape it is. -/
theorem code_eq_of_encodeTagged_append_eq (ha : encodeTagged a = .ok p)
    (hb : encodeTagged b = .ok q) (heq : p ++ x = q ++ y) :
    (Collider.kind α).code = (Collider.kind β).code := by
  obtain ⟨hcodes, -⟩ := Bytes.separates_ofInt16?.first ha hb heq
  exact UInt16.toNat_inj.1 (Int.ofNat.inj hcodes)

/-- Shapes of one type are told apart after their code as they are without it. -/
theorem separates_encodeTagged (h : Separates (Node.encode : α → Except Error Bytes) id) :
    Separates (encodeTagged : α → Except Error Bytes) id := by
  intro a b p q x y ha hb heq
  obtain ⟨-, _, _, ha, hb, heq⟩ := Bytes.separates_ofInt16?.first ha hb heq
  exact h ha hb heq

end Shapes

/-- Bounding shapes are told apart, the kind by its code. -/
theorem BoundingVolume.separates : Separates BoundingVolume.encodeTagged id := by
  intro a b p q x y ha hb heq
  cases a with
  | sphere s =>
    cases b with
    | sphere t =>
      obtain ⟨rfl, hrest⟩ :=
        separates_encodeTagged (Node.Regular.separates inferInstance) ha hb heq
      exact ⟨rfl, hrest⟩
    | aabb box => exact absurd (code_eq_of_encodeTagged_append_eq ha hb heq) (by decide)
  | aabb box =>
    cases b with
    | sphere t => exact absurd (code_eq_of_encodeTagged_append_eq ha hb heq) (by decide)
    | aabb box' =>
      obtain ⟨rfl, hrest⟩ := separates_encodeTagged Aabb.separates ha hb heq
      exact ⟨rfl, hrest⟩

/-! ## Embedded models -/

namespace EmbeddedModel

/-- What stands at the end of a model: its triangles after their code, or the
code that says that there are none. -/
def encodeSoup : Option TriangleSoup → Except Error Bytes
  | some soup => encodeTagged soup
  | none => .ok encodeNoCollider

/-- The code for no shape is not the code of a soup. -/
theorem encodeTagged_soup_append_ne {soup : TriangleSoup} {p x y : Bytes}
    (h : encodeTagged soup = .ok p) : p ++ x ≠ encodeNoCollider ++ y := by
  intro heq
  obtain ⟨c, p, hc, -, rfl⟩ := append_eq_ok.1 h
  rw [List.append_assoc] at heq
  have hnone : Bytes.ofInt16? 0 = .ok encodeNoCollider := rfl
  exact absurd (Bytes.separates_ofInt16? hc hnone heq).1 (by decide)

/-- Whether there are triangles, and which, is told apart. -/
theorem separates_encodeSoup : Separates encodeSoup id := by
  intro s t p q x y hs ht heq
  cases s with
  | none =>
    cases hs
    cases t with
    | none =>
      cases ht
      exact ⟨rfl, List.append_cancel_left heq⟩
    | some t => exact absurd heq.symm (encodeTagged_soup_append_ne ht)
  | some s =>
    cases t with
    | none =>
      cases ht
      exact absurd heq (encodeTagged_soup_append_ne hs)
    | some t =>
      obtain ⟨rfl, hrest⟩ :=
        separates_encodeTagged (Node.Regular.separates inferInstance) hs ht heq
      exact ⟨rfl, hrest⟩

/-- Triangles are derived where they are asked for. -/
theorem isSome_of_deriveColliders {m : EmbeddedModel} {bounding : BoundingVolume}
    {soup? : Option TriangleSoup} (h : m.deriveColliders = .ok (bounding, soup?)) :
    soup?.isSome = m.detailedCollider := by
  unfold deriveColliders at h
  split at h
  · cases h
  · obtain ⟨meshes, -, h⟩ := bind_eq_ok.1 h
    obtain ⟨shape, -, h⟩ := bind_eq_ok.1 h
    split at h
    · obtain ⟨soup, -, h⟩ := bind_eq_ok.1 h
      cases h
      symm
      assumption
    · cases h
      simp_all

/-- The parts of the binary form of a model, in order. -/
theorem encode_eq_ok {m : EmbeddedModel} {p : Bytes} (h : encode m = .ok p) :
    ∃ bounding soup? name units actors shape soup,
      m.deriveColliders = .ok (bounding, soup?) ∧
      Node.encode m.name = .ok name ∧ Node.encode m.renderUnits = .ok units ∧
      Node.encode m.staticActors = .ok actors ∧ bounding.encodeTagged = .ok shape ∧
      encodeSoup soup? = .ok soup ∧ p = name ++ (units ++ (actors ++ (shape ++ soup))) := by
  obtain ⟨⟨bounding, soup?⟩, hderive, h⟩ := bind_eq_ok.1 h
  obtain ⟨name, hname, h⟩ := bind_eq_ok.1 h
  obtain ⟨units, hunits, h⟩ := bind_eq_ok.1 h
  obtain ⟨actors, hactors, h⟩ := bind_eq_ok.1 h
  obtain ⟨shape, hshape, h⟩ := bind_eq_ok.1 h
  have hsoup : ∃ soup, encodeSoup soup? = .ok soup ∧
      p = name ++ (units ++ (actors ++ (shape ++ soup))) := by
    cases soup? <;>
    · obtain ⟨soup, hsoup, h⟩ := bind_eq_ok.1 h
      cases h
      exact ⟨soup, hsoup, rfl⟩
  obtain ⟨soup, hsoup, rfl⟩ := hsoup
  exact ⟨bounding, soup?, name, units, actors, shape, soup, hderive, locating_eq_ok.1 hname,
    locating_eq_ok.1 hunits, locating_eq_ok.1 hactors, hshape, hsoup, rfl⟩

/-- **Embedded models are told apart**, by the fields that are written and by
whether triangles stand in place of the one that is not. -/
theorem separates : Separates (Node.encode : EmbeddedModel → Except Error Bytes) id := by
  intro a b p q x y ha hb heq
  obtain ⟨_, _, _, _, _, _, _, hda, hna, hua, haa, hba, hsa, rfl⟩ := encode_eq_ok ha
  obtain ⟨_, _, _, _, _, _, _, hdb, hnb, hub, hab, hbb, hsb, rfl⟩ := encode_eq_ok hb
  simp only [List.append_assoc] at heq
  obtain ⟨hname, heq⟩ := Node.Regular.separates inferInstance hna hnb heq
  obtain ⟨hunits, heq⟩ := Node.Regular.separates inferInstance hua hub heq
  obtain ⟨hactors, heq⟩ := Node.Regular.separates inferInstance haa hab heq
  -- the shape is derived, so all that is asked of it is where it ends
  obtain ⟨-, heq⟩ := BoundingVolume.separates hba hbb heq
  obtain ⟨hsoup, hrest⟩ := separates_encodeSoup hsa hsb heq
  -- the flag itself is not written, but whether triangles are
  have hcollider : a.detailedCollider = b.detailedCollider := by
    rw [← isSome_of_deriveColliders hda, ← isSome_of_deriveColliders hdb]
    exact congrArg Option.isSome hsoup
  refine ⟨?_, hrest⟩
  cases a
  cases b
  simp_all

end EmbeddedModel

/-! ## Maps -/

/-- What a document says about itself takes up four bytes and shows nothing. -/
theorem Metadata.separates :
    Separates (Node.encode : Metadata → Except Error Bytes) (fun _ => (Record.initial : Metadata)) := by
  intro a b p q x y ha hb heq
  cases ha
  cases hb
  exact ⟨rfl, List.append_cancel_left heq⟩

/-- A map apart from the version that the document declares. -/
def MapChunk.undated (m : MapChunk) : MapChunk := { m with metadata := Record.initial }

/-- **The binary form of a map gives the map back**, apart from the declared
version, and says where it ends. -/
theorem MapChunk.separates : Separates (Node.encode : MapChunk → Except Error Bytes) undated := by
  have hfields :=
    (Metadata.separates.locating (.field "metadata")).seq <|
    ((Node.separates_list EmbeddedModel.separates).locating (.field "embedded_models")).seq <|
    ((Node.Regular.separates (α := List ImportedModel) inferInstance).locating
      (.field "imported_models")).seq <|
    ((Node.Regular.separates (α := List WaterPlane) inferInstance).locating
      (.field "water_planes")).seq <|
    ((Node.Regular.separates (α := List PointLight) inferInstance).locating
      (.field "point_lights")).seq <|
    (Field.separates_encodeAll (by simp) : Separates (Field.encodeAll []) id)
  intro m n p q x y hm hn heq
  obtain ⟨hview, hrest⟩ := @hfields (Record.split m) (Record.split n) p q x y hm hn heq
  have hparts : (m.embeddedModels.map id, m.importedModels, m.waterPlanes, m.pointLights, ()) =
      (n.embeddedModels.map id, n.importedModels, n.waterPlanes, n.pointLights, ()) :=
    congrArg Prod.snd hview
  simp only [List.map_id, Prod.mk.injEq, and_true] at hparts
  obtain ⟨hembedded, himported, hwater, hlights⟩ := hparts
  refine ⟨?_, hrest⟩
  rw [undated, undated, hembedded, himported, hwater, hlights]

/-! ## Every type of nodes -/

namespace NodeType

/-- The type whose values tell, or whose items tell, which candidate they
belong to. The values of a choice by themselves do not. -/
def isTold : NodeType → Bool
  | bare _ => false
  | list item => item.isTold
  | _ => true

/-- A value apart from the versions that documents declare. -/
def undated : (t : NodeType) → t.Carrier → t.Carrier
  | metadata, _ => Record.initial
  | mapChunk, m => MapChunk.undated m
  | list item, xs => List.map item.undated xs
  | _, v => v

/-- **Every type of nodes separates its values**, apart from declared versions. -/
theorem separates (t : NodeType) (h : t.isTold = true) :
    Separates (Node.encode : t.Carrier → Except Error Bytes) t.undated := by
  induction t with
  | bare c => cases h
  | list item ih => exact Node.separates_list (ih h)
  | aabb => exact Aabb.separates
  | lamp => exact Lamp.separates
  | tagged => exact Tagged.separates
  | embeddedModel => exact EmbeddedModel.separates
  | metadata => exact Metadata.separates
  | mapChunk => exact MapChunk.separates
  | variant c => cases c <;> exact Node.Regular.separates inferInstance
  | _ => exact Node.Regular.separates inferInstance

/-- Values whose choices by themselves belong to the same candidates. Lists that
are not of one length are left to their counts. -/
def Akin : (t : NodeType) → t.Carrier → t.Carrier → Prop
  | bare _, a, b => Choice.index a = Choice.index b
  | list item, xs, ys => xs.length = ys.length → List.Forall₂ item.Akin xs ys
  | _, _, _ => True

/-- Values of a choice by themselves are told apart once it is known that they
belong to one candidate. -/
theorem tellsApart_bare (c : ChoiceType) {a b : c.Carrier} (h : Choice.index a = Choice.index b) :
    TellsApart (bare c).node.encode id a b := by
  have hcandidates : Candidate.Regular (Choice.candidates c.Carrier) := by
    cases c <;> infer_instance
  intro p q x y ha hb heq
  exact Choice.encode_append_inj (fun d hd => (hcandidates.value d hd).separates) h ha hb heq

/-- **Values of every type of nodes are told apart** once it is known that their
choices by themselves belong to the same candidates. -/
theorem tellsApart_of_akin (t : NodeType) {a b : t.Carrier} (h : t.Akin a b) :
    TellsApart (Node.encode : t.Carrier → Except Error Bytes) t.undated a b := by
  induction t with
  | bare c => exact tellsApart_bare c h
  | list item ih => exact Node.tellsApart_list fun hlen => (h hlen).imp fun _ _ => ih
  | _ => exact @separates _ rfl a b

end NodeType

namespace MapChunk

/-- **The binary form of a map is uniquely decodable and leaves out nothing but
the declared version.** Two maps whose binary forms begin the same bytes are the
same in everything else, and the same bytes follow both; maps that differ in
nothing else have the same binary form. The binary forms of all types of nodes
inside a map are told apart in the same way, but for the values of a choice by
themselves and lists of them, which are if they belong to the same candidates. -/
theorem encodeBinary_append_inj :
    (∀ (m n : MapChunk) (p q x y : Bytes), m.encodeBinary = .ok p → n.encodeBinary = .ok q →
      p ++ x = q ++ y →
      x = y ∧ m.embeddedModels = n.embeddedModels ∧ m.importedModels = n.importedModels ∧
        m.waterPlanes = n.waterPlanes ∧ m.pointLights = n.pointLights) ∧
    (∀ m n : MapChunk, m.undated = n.undated → m.encodeBinary = n.encodeBinary) ∧
    (∀ t : NodeType, t.isTold = true → ∀ (v w : t.Carrier) (p q x y : Bytes),
      Node.encode v = .ok p → Node.encode w = .ok q → p ++ x = q ++ y →
      x = y ∧ t.undated v = t.undated w) ∧
    ∀ (t : NodeType) (v w : t.Carrier), t.Akin v w → ∀ p q x y : Bytes,
      Node.encode v = .ok p → Node.encode w = .ok q → p ++ x = q ++ y →
      x = y ∧ t.undated v = t.undated w := by
  refine ⟨fun m n p q x y hm hn heq => ?_, fun m n h => ?_, fun t ht v w p q x y hv hw heq => ?_,
    fun t v w h p q x y hv hw heq => ?_⟩
  · obtain ⟨hview, hrest⟩ := separates (mapError_eq_ok.1 hm) (mapError_eq_ok.1 hn) heq
    exact ⟨hrest, (MapChunk.mk.inj hview).2⟩
  · have hundated (m : MapChunk) : m.encodeBinary = m.undated.encodeBinary := rfl
    rw [hundated m, hundated n, h]
  · obtain ⟨hview, hrest⟩ := NodeType.separates t ht hv hw heq
    exact ⟨hrest, hview⟩
  · obtain ⟨hview, hrest⟩ := NodeType.tellsApart_of_akin t h hv hw heq
    exact ⟨hrest, hview⟩

/-- A map with one light, of a document that declares the given version. -/
def lit (version : Int32) : MapChunk := ⟨⟨version⟩, [], [], [], [Record.initial]⟩

/-- An array without vertices. -/
def blankArray : MeshSource := .vertexArray ⟨.empty, .empty, .empty⟩

/-- Two documents, and two lists, that differ in the versions they declare, each
with one more byte behind; and the one array by itself that is written as these
bytes. -/
theorem encodeBinary_append_inj_lit : ∃ p q : Bytes,
    (lit 1).encodeBinary = .ok p ∧ (lit 7).encodeBinary = .ok p ∧
    (lit 1).pointLights = (lit 7).pointLights ∧
    Node.encode [Metadata.mk 1] = .ok q ∧ Node.encode [Metadata.mk 7] = .ok q ∧
    NodeType.undated (.list .metadata) [Metadata.mk 1] =
      NodeType.undated (.list .metadata) [Metadata.mk 7] ∧
    ∀ array : VertexArray,
      (NodeType.bare .meshSource).node.encode (MeshSource.vertexArray array) =
        .ok (List.replicate 12 0) → MeshSource.vertexArray array = blankArray := by
  have hok : (lit 1).encodeBinary.isOk = true := by decide
  obtain ⟨p, hp⟩ := isOk_iff.1 hok
  have hsame : (lit 7).encodeBinary = .ok p := by
    rw [encodeBinary_append_inj.2.1 (lit 7) (lit 1) rfl, hp]
  have hfirst : Node.encode [Metadata.mk 1] = .ok [1, 0, 0, 0, 1, 0, 0, 0] :=
    toOption_eq_some.1 (by decide)
  have hsecond : Node.encode [Metadata.mk 7] = .ok [1, 0, 0, 0, 1, 0, 0, 0] :=
    toOption_eq_some.1 (by decide)
  refine ⟨p, _, hp, hsame, ?_, hfirst, hsecond, ?_, fun array harray => ?_⟩
  · exact (encodeBinary_append_inj.1 _ _ p p [9] [9] hp hsame rfl).2.2.2.2
  · exact (encodeBinary_append_inj.2.2.1 (.list .metadata) rfl [⟨1⟩] [⟨7⟩] _ _ [9] [9] hfirst
      hsecond rfl).2
  · have hblank : (NodeType.bare .meshSource).node.encode blankArray =
        .ok (List.replicate 12 0) := toOption_eq_some.1 (by decide)
    exact (encodeBinary_append_inj.2.2.2 (.bare .meshSource) (.vertexArray array) blankArray rfl
      _ _ [9] [9] harray hblank rfl).2

/-- A rectangle whose corners are all at one point. -/
def pointRect : MeshSource := .rect ⟨.zero, .zero, .zero, .zero, false⟩

/-- **The values of a choice by themselves are not told apart.** An array without
vertices is written as the beginning of a rectangle at one point, as neither says
which candidate it belongs to. -/
theorem not_separates_bare :
    (NodeType.bare .meshSource).node.encode blankArray = .ok (List.replicate 12 0) ∧
    (NodeType.bare .meshSource).node.encode pointRect =
      .ok (List.replicate 12 0 ++ List.replicate 37 0) ∧
    ¬ ∀ (t : NodeType) (v w : t.Carrier) (p q x y : Bytes),
      Node.encode v = .ok p → Node.encode w = .ok q → p ++ x = q ++ y → x = y := by
  have harray : (NodeType.bare .meshSource).node.encode blankArray = .ok (List.replicate 12 0) :=
    toOption_eq_some.1 (by decide)
  have hrect : (NodeType.bare .meshSource).node.encode pointRect =
      .ok (List.replicate 12 0 ++ List.replicate 37 0) := toOption_eq_some.1 (by decide)
  refine ⟨harray, hrect, fun hall => ?_⟩
  have hrest := hall (.bare .meshSource) blankArray pointRect _ _ (List.replicate 37 0) [] harray
    hrect (List.append_nil _).symm
  exact absurd hrest (by decide)

end MapChunk

end MapDocument
