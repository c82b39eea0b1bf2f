import MapDocument.Catalog.Basic
import MapDocument.Compile.Document
import MapDocument.Proofs.FloatingPoint.Order
import MapDocument.Proofs.Node.Reload
import MapDocument.Proofs.Scene.Regular
import MapDocument.Proofs.Scene.Separation
/-!
# Scene — the text form of a map gives the map back

A map that was loaded comes back from its text form bit for bit, and so does
every map that has a binary form. Boxes and lamps are put right after a load,
and the proof that they come back is that what has been put right is left as
it is. The other nodes come back because their fields do.
-/

namespace MapDocument

/-! ## Boxes and lamps -/

/-- A loaded field is loaded from its member, or has its default. -/
theorem Field.load_eq_ok {f : Field} {j? : Option Json} {s v : f.Value}
    (h : f.load j? s = .ok () v) : (∃ j, Node.load j s = .ok () v) ∨ v = f.initial := by
  cases j? with
  | some j => exact .inl ⟨j, Edit.within_eq_ok.1 h⟩
  | none =>
    cases h
    exact .inr rfl

/-- A vector that was loaded as a field is finite if its default is. -/
theorem Vec3.isFinite_of_load {name : String} {initial s v : Vec3} {j? : Option Json}
    (hinitial : ∀ x ∈ initial.toList, x.isFinite = true)
    (h : (field name initial).load j? s = .ok () v) : ∀ x ∈ v.toList, x.isFinite = true := by
  rcases Field.load_eq_ok h with ⟨j, hj⟩ | rfl
  · exact Json.isFinite_of_asVec3 (Edit.assign_eq_ok.1 hj)
  · exact hinitial

/-- A box of finite corners that are in order comes back. -/
theorem Aabb.load_toJson {s v : Aabb} (hmin : ∀ x ∈ v.min.toList, x.isFinite = true)
    (hmax : ∀ x ∈ v.max.toList, x.isFinite = true) (hnormal : v.normalize = v) :
    Node.load (Node.toJson v) s = .ok () v := by
  have hreload : Field.ReloadAll (Record.fields Aabb) (Record.split s) (Record.split v) :=
    ⟨Edit.assign_eq_ok.2 (Json.asVec3_ofSingles hmin),
      Edit.assign_eq_ok.2 (Json.asVec3_ofSingles hmax), trivial⟩
  exact (Record.load_toJson (by decide) hreload).trans (congrArg _ hnormal)

/-- **Corners that have been put in order are in order.** -/
theorem Aabb.normalize_normalize (box : Aabb) : box.normalize.normalize = box.normalize := by
  obtain ⟨hminx, hmaxx⟩ := FloatingPoint.min_max_idem box.min.x box.max.x
  obtain ⟨hminy, hmaxy⟩ := FloatingPoint.min_max_idem box.min.y box.max.y
  obtain ⟨hminz, hmaxz⟩ := FloatingPoint.min_max_idem box.min.z box.max.z
  simp only [normalize, Vec3.min, Vec3.max, Vec3.map2, hminx, hmaxx, hminy, hmaxy, hminz, hmaxz]

/-- The corners of a box are finite if those are that it was made from. -/
theorem Aabb.isFinite_normalize {box : Aabb} (hmin : ∀ x ∈ box.min.toList, x.isFinite = true)
    (hmax : ∀ x ∈ box.max.toList, x.isFinite = true) :
    (∀ x ∈ box.normalize.min.toList, x.isFinite = true) ∧
      ∀ x ∈ box.normalize.max.toList, x.isFinite = true := by
  simp only [Vec3.toList, List.mem_cons, List.not_mem_nil, or_false, forall_eq_or_imp, forall_eq]
    at hmin hmax ⊢
  obtain ⟨hx, hy, hz⟩ := hmin
  obtain ⟨hx', hy', hz'⟩ := hmax
  exact ⟨⟨(FloatingPoint.isFinite_min_max hx hx').1, (FloatingPoint.isFinite_min_max hy hy').1,
      (FloatingPoint.isFinite_min_max hz hz').1⟩,
    (FloatingPoint.isFinite_min_max hx hx').2, (FloatingPoint.isFinite_min_max hy hy').2,
      (FloatingPoint.isFinite_min_max hz hz').2⟩

theorem Aabb.reloadsLoaded : Node.ReloadsLoaded Aabb := by
  intro j s v hv
  obtain ⟨members, ⟨min, max, ⟨⟩⟩, hload, rfl⟩ := Record.load_eq_ok hv
  obtain ⟨hmin, hload⟩ := Field.loadAll_cons_eq_ok.1 hload
  obtain ⟨hmax, -⟩ := Field.loadAll_cons_eq_ok.1 hload
  obtain ⟨hmin, hmax⟩ := @Aabb.isFinite_normalize ⟨min, max⟩
    (Vec3.isFinite_of_load (by decide) hmin) (Vec3.isFinite_of_load (by decide) hmax)
  exact Aabb.load_toJson hmin hmax (Aabb.normalize_normalize ⟨min, max⟩)

/-- A lamp of finite parts whose power is not negative comes back. -/
theorem Lamp.load_toJson {s v : Lamp} (hcolor : ∀ x ∈ v.color.toList, x.isFinite = true)
    (hpower : v.power.isFinite = true) (hsettle : Record.settle v = v) :
    Node.load (Node.toJson v) s = .ok () v := by
  have hreload : Field.ReloadAll (Record.fields Lamp) (Record.split s) (Record.split v) :=
    ⟨Edit.assign_eq_ok.2 (Json.asVec3_ofSingles hcolor),
      Edit.assign_eq_ok.2 (Json.asSingle_ofSingle hpower), rfl, trivial⟩
  exact (Record.load_toJson (by decide) hreload).trans (congrArg _ hsettle)

theorem Lamp.reloadsLoaded : Node.ReloadsLoaded Lamp := by
  intro j s v hv
  obtain ⟨members, ⟨color, power, on, ⟨⟩⟩, hload, rfl⟩ := Record.load_eq_ok hv
  obtain ⟨hcolor, hload⟩ := Field.loadAll_cons_eq_ok.1 hload
  obtain ⟨hpower, -⟩ := Field.loadAll_cons_eq_ok.1 hload
  have hcolor := Vec3.isFinite_of_load (by decide) hcolor
  have hfinite : power.isFinite = true := by
    rcases Field.load_eq_ok hpower with ⟨j, hj⟩ | rfl
    · exact Json.isFinite_of_asSingle (Edit.assign_eq_ok.1 hj)
    · decide
  have hsettle : Record.settle (⟨color, power, on⟩ : Lamp) =
      if power.lt .zero then ⟨color, .zero, on⟩ else ⟨color, power, on⟩ := rfl
  show Node.load (Node.toJson (Record.settle (⟨color, power, on⟩ : Lamp))) s =
    .ok () (Record.settle (⟨color, power, on⟩ : Lamp))
  rw [hsettle]
  -- a negative power was put to zero, which is left as it is
  by_cases hneg : power.lt .zero = true
  · rw [if_pos hneg]
    exact Lamp.load_toJson hcolor rfl rfl
  · rw [if_neg hneg]
    exact Lamp.load_toJson hcolor hfinite (hsettle.trans (if_neg hneg))

/-! ## Maps -/

theorem Tagged.reloads : Node.Reloads Tagged :=
  Record.reloads (by decide) (fun _ => rfl) (fun {v p} _ => ⟨_, rfl⟩) (by decide)
    fun f hf => (Field.Regular.value f hf).reloads

theorem Metadata.reloads : Node.Reloads Metadata :=
  Record.reloads (by decide) (fun _ => rfl) (fun {v p} _ => ⟨_, rfl⟩) (by decide)
    fun f hf => (Field.Regular.value f hf).reloads

/-- An embedded model whose binary form ends in derived shapes has binary forms
of all its fields. -/
theorem EmbeddedModel.encodeFields_of_encode {m : EmbeddedModel} {p : Bytes}
    (h : Record.encode m = .ok p) : ∃ q, Record.encodeFields m = .ok q := by
  obtain ⟨_, _, name, units, actors, _, _, -, hname, hunits, hactors, -, -, -⟩ := encode_eq_ok h
  refine Field.exists_encodeAll_cons hname ?_
  refine Field.exists_encodeAll_cons hunits ?_
  refine Field.exists_encodeAll_cons hactors ?_
  exact ⟨_, rfl⟩

theorem EmbeddedModel.reloads : Node.Reloads EmbeddedModel :=
  Record.reloads (by decide) (fun _ => rfl) encodeFields_of_encode (by decide)
    fun f hf => (Field.Regular.value f hf).reloads

/-- Every field of a map comes back. -/
theorem MapChunk.reloads_fields : ∀ f ∈ Record.fields MapChunk, Node.Reloads f.Value := by
  intro f hf
  simp only [Record.fields, List.mem_cons, List.not_mem_nil, or_false] at hf
  rcases hf with rfl | rfl | rfl | rfl | rfl
  · exact Metadata.reloads
  · exact Node.reloads_list EmbeddedModel.reloads
  · exact Node.Regular.reloads (α := List ImportedModel) inferInstance
  · exact Node.Regular.reloads (α := List WaterPlane) inferInstance
  · exact Node.Regular.reloads (α := List PointLight) inferInstance

theorem MapChunk.reloads : Node.Reloads MapChunk :=
  Record.reloads (by decide) (fun _ => rfl) (fun {v p} h => ⟨p, h⟩) (by decide) reloads_fields

/-! ## Every type of nodes -/

namespace NodeType

/-- **Whatever was loaded comes back where it was loaded**, for every type of nodes. -/
theorem reloadsLoaded (t : NodeType) : Node.ReloadsLoaded t.Carrier := by
  induction t with
  | list item ih => exact Node.reloadsLoaded_list ih
  | aabb => exact Aabb.reloadsLoaded
  | lamp => exact Lamp.reloadsLoaded
  | tagged => exact Tagged.reloads.loaded
  | embeddedModel => exact EmbeddedModel.reloads.loaded
  | metadata => exact Metadata.reloads.loaded
  | mapChunk => exact MapChunk.reloads.loaded
  | bare c =>
    intro j s v hv
    refine Choice.load_toJson (fun d hd => ?_) hv
    cases c <;> exact (Candidate.Regular.value d hd).reloads.loaded
  | variant c => cases c <;> exact (Node.Regular.reloads inferInstance).loaded
  | _ => exact (Node.Regular.reloads inferInstance).loaded

end NodeType

namespace MapChunk

/-- **A map comes back from its text form bit for bit**, whether it was loaded or
has a binary form. Loading and writing again gives the same text form, and what
was loaded has the same binary form. Nodes of every type that were loaded come
back too. -/
theorem ofJson_toJson :
    (∀ m : MapChunk, ((∃ j, Node.ofJson j = .ok m) ∨ ∃ p, m.encodeBinary = .ok p) →
      Node.ofJson (Node.toJson m) = .ok m ∧
      Node.toJson <$> (Node.ofJson (Node.toJson m) : Except Error MapChunk) =
        .ok (Node.toJson m) ∧
      ((Node.ofJson (Node.toJson m)).mapError .notMap >>= encodeBinary) = m.encodeBinary) ∧
    ∀ (t : NodeType) (j : Json) (v : t.Carrier), Node.ofJson j = .ok v →
      Node.ofJson (Node.toJson v) = .ok v := by
  refine ⟨fun m hm => ?_, fun t j v hv => t.reloadsLoaded.ofJson hv⟩
  have hsame : Node.ofJson (Node.toJson m) = .ok m := by
    rcases hm with ⟨j, hj⟩ | ⟨p, hp⟩
    · exact reloads.loaded.ofJson hj
    · exact Edit.eval_eq_ok.2 (reloads.encoded (mapError_eq_ok.1 hp) Node.initial)
  refine ⟨hsame, ?_, ?_⟩
  · rw [hsame]
    rfl
  · rw [hsame]
    rfl

/-- A map with one light that was loaded, the same map as it is written, and a
box whose corners had to be put in order. -/
theorem ofJson_toJson_lit :
    Node.ofJson (Node.toJson (lit 7)) = .ok (lit 7) ∧
    Node.ofJson (Node.toJson (lit 1)) = .ok (lit 1) ∧
    Node.ofJson (Node.toJson (⟨⟨0, 0, 0⟩, ⟨1, 0, 0⟩⟩ : Aabb)) =
      .ok (⟨⟨0, 0, 0⟩, ⟨1, 0, 0⟩⟩ : Aabb) := by
  refine ⟨?_, ?_, ?_⟩
  · refine (ofJson_toJson.1 (lit 7) (.inl ⟨.object [("point_lights", .array [.object []]),
      ("metadata", .object [("bin_version", .ofInt 7)])], ?_⟩)).1
    rfl
  · refine (ofJson_toJson.1 (lit 1) (.inr (isOk_iff.1 ?_))).1
    decide
  · refine ofJson_toJson.2 .aabb (.object [("min", .array [.ofInt 1, .ofInt 0, .ofInt 0])]) _ ?_
    exact toOption_eq_some.1 (by decide +kernel)

end MapChunk

end MapDocument
