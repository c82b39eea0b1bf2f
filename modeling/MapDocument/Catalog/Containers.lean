import MapDocument.Catalog.Basic
/-!
# Catalog — containers offered nodes of any type

Lists and variants take nodes whose type is not known beforehand, and
refuse those they do not hold. The codes by which they tell are those of the
catalog.
-/

namespace MapDocument

/-! ## Lists -/

namespace NodeType

/-- Lists are of a type that has another name. -/
theorem list_ne (t : NodeType) : list t ≠ t := by
  induction t with
  | list item ih =>
    intro h
    exact ih (NodeType.list.inj h)
  | _ => nofun

instance listed : Listed Carrier where
  list := list
  path := path
  carrier_list _ := rfl
  list_ne := list_ne

end NodeType

/-- One change of a list of nodes of type `t`. -/
abbrev ListStep (t : NodeType) : Type := UniformList.Step NodeType.Carrier t

/-! ## Variants -/

instance : Choice.Coded NodeType.Carrier Scalar where
  bare := .bare .scalar
  codes := [("Float", .single), ("Int", .int32)]
  carrier_bare := rfl
  candidates_eq := rfl
  nodup := by decide

instance : Choice.Coded NodeType.Carrier Checked where
  bare := .bare .checked
  codes := [("Positive", .positive), ("Label", .label)]
  carrier_bare := rfl
  candidates_eq := rfl
  nodup := by decide

instance : Choice.Coded NodeType.Carrier MeshSource where
  bare := .bare .meshSource
  codes := [("Rect", .rectMesh), ("HeightGrid", .heightGrid), ("VertexArray", .vertexArray)]
  carrier_bare := rfl
  candidates_eq := rfl
  nodup := by decide

namespace ChoiceType

/-- The codes of a choice and of its candidates. -/
instance coded : (c : ChoiceType) → Choice.Coded NodeType.Carrier c.Carrier
  | scalar => inferInstanceAs (Choice.Coded NodeType.Carrier Scalar)
  | checked => inferInstanceAs (Choice.Coded NodeType.Carrier Checked)
  | meshSource => inferInstanceAs (Choice.Coded NodeType.Carrier MeshSource)

/-- The value of a choice that a node of any type is, if it is one. -/
abbrev ofAny? (c : ChoiceType) (x : AnyNode) : Option c.Carrier := Choice.ofErased? x

end ChoiceType

/-- One change of a variant of the choice `c`. -/
abbrev VariantStep (c : ChoiceType) : Type := Variant.Step NodeType.Carrier c.Carrier

end MapDocument
