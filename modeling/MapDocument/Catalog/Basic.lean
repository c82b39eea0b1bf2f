import MapDocument.Catalog.Sample
import MapDocument.Node.Erased
import MapDocument.Scene.Chunk
/-!
# Catalog — the types of nodes

All types of nodes as one type of codes. A code stands for a type and for
what its values can do as nodes, so a node can be spoken of without saying
beforehand what it is.
-/

namespace MapDocument

/-- The choices. -/
inductive ChoiceType
  | scalar
  | checked
  | meshSource
deriving DecidableEq, Repr

namespace ChoiceType

/-- The values of a choice. -/
@[reducible] def Carrier : ChoiceType → Type
  | scalar => Scalar
  | checked => Checked
  | meshSource => MeshSource

/-- What the values of a choice can do. -/
instance choice : (c : ChoiceType) → Choice c.Carrier
  | scalar => inferInstanceAs (Choice Scalar)
  | checked => inferInstanceAs (Choice Checked)
  | meshSource => inferInstanceAs (Choice MeshSource)

/-- The default of the first candidate. -/
def initial : (c : ChoiceType) → c.Carrier
  | scalar => .float .zero
  | checked => .positive Record.initial
  | meshSource => .rect Record.initial

/-- How the values of a choice judge themselves, if they do. -/
def inspect? : (c : ChoiceType) → Option (Inspect c.Carrier)
  | scalar => none
  | checked => some (inferInstanceAs (Inspect Checked))
  | meshSource => some (inferInstanceAs (Inspect MeshSource))

/-- The name of the type in messages. -/
def path : ChoiceType → String
  | scalar => "sample::Scalar"
  | checked => "sample::Checked"
  | meshSource => "map_compiler::schema::render_unit::MeshSource"

end ChoiceType

/-- The nodes that the values of a choice are, apart from any variant. -/
@[reducible] def Choice.toNode {σ : Type} [Choice σ] (initial : σ) : Node σ where
  initial := initial
  reset := Choice.reset
  toJson := Choice.toJson
  load := Choice.load
  encode := Choice.encode
  equals := Choice.equals

/-- The types of nodes. -/
inductive NodeType
  | single
  | int32
  | bool
  | vec3
  | quaternion
  | identifier
  | floatBuffer
  | aabb
  | sphere
  | triangle
  | triangleSoup
  | rectMesh
  | heightGrid
  | vertexArray
  | material
  | renderUnit
  | transform
  | staticActor
  | embeddedModel
  | importedModel
  | waterPlane
  | pointLight
  | metadata
  | mapChunk
  | lamp
  | tagged
  | nothing
  | positive
  | label
  /-- The values of a choice by themselves. -/
  | bare (c : ChoiceType)
  | variant (c : ChoiceType)
  | list (item : NodeType)
deriving DecidableEq, Repr

namespace NodeType

/-- The values of a type of nodes. -/
@[reducible] def Carrier : NodeType → Type
  | single => Single
  | int32 => Int32
  | bool => Bool
  | vec3 => Vec3
  | quaternion => Quaternion
  | identifier => Identifier
  | floatBuffer => FloatBuffer
  | aabb => Aabb
  | sphere => Sphere
  | triangle => Triangle
  | triangleSoup => TriangleSoup
  | rectMesh => RectMesh
  | heightGrid => HeightGrid
  | vertexArray => VertexArray
  | material => Material
  | renderUnit => RenderUnit
  | transform => Transform
  | staticActor => StaticActor
  | embeddedModel => EmbeddedModel
  | importedModel => ImportedModel
  | waterPlane => WaterPlane
  | pointLight => PointLight
  | metadata => Metadata
  | mapChunk => MapChunk
  | lamp => Lamp
  | tagged => Tagged
  | nothing => Nothing
  | positive => Positive
  | label => Label
  | bare c => c.Carrier
  | variant c => Option c.Carrier
  | list item => List item.Carrier

/-- The record that a type of nodes is, if it is one. -/
def record? : (t : NodeType) → Option (Record t.Carrier)
  | aabb => some (inferInstanceAs (Record Aabb))
  | sphere => some (inferInstanceAs (Record Sphere))
  | triangle => some (inferInstanceAs (Record Triangle))
  | triangleSoup => some (inferInstanceAs (Record TriangleSoup))
  | rectMesh => some (inferInstanceAs (Record RectMesh))
  | heightGrid => some (inferInstanceAs (Record HeightGrid))
  | vertexArray => some (inferInstanceAs (Record VertexArray))
  | material => some (inferInstanceAs (Record Material))
  | renderUnit => some (inferInstanceAs (Record RenderUnit))
  | transform => some (inferInstanceAs (Record Transform))
  | staticActor => some (inferInstanceAs (Record StaticActor))
  | embeddedModel => some (inferInstanceAs (Record EmbeddedModel))
  | importedModel => some (inferInstanceAs (Record ImportedModel))
  | waterPlane => some (inferInstanceAs (Record WaterPlane))
  | pointLight => some (inferInstanceAs (Record PointLight))
  | metadata => some (inferInstanceAs (Record Metadata))
  | mapChunk => some (inferInstanceAs (Record MapChunk))
  | lamp => some (inferInstanceAs (Record Lamp))
  | tagged => some (inferInstanceAs (Record Tagged))
  | nothing => some (inferInstanceAs (Record Nothing))
  | positive => some (inferInstanceAs (Record Positive))
  | label => some (inferInstanceAs (Record Label))
  | _ => none

/-- What the values of a type of nodes can do. -/
instance node : (t : NodeType) → Node t.Carrier
  | single => inferInstanceAs (Node Single)
  | int32 => inferInstanceAs (Node Int32)
  | bool => inferInstanceAs (Node Bool)
  | vec3 => inferInstanceAs (Node Vec3)
  | quaternion => inferInstanceAs (Node Quaternion)
  | identifier => inferInstanceAs (Node Identifier)
  | floatBuffer => inferInstanceAs (Node FloatBuffer)
  | aabb => inferInstanceAs (Node Aabb)
  | sphere => inferInstanceAs (Node Sphere)
  | triangle => inferInstanceAs (Node Triangle)
  | triangleSoup => inferInstanceAs (Node TriangleSoup)
  | rectMesh => inferInstanceAs (Node RectMesh)
  | heightGrid => inferInstanceAs (Node HeightGrid)
  | vertexArray => inferInstanceAs (Node VertexArray)
  | material => inferInstanceAs (Node Material)
  | renderUnit => inferInstanceAs (Node RenderUnit)
  | transform => inferInstanceAs (Node Transform)
  | staticActor => inferInstanceAs (Node StaticActor)
  | embeddedModel => inferInstanceAs (Node EmbeddedModel)
  | importedModel => inferInstanceAs (Node ImportedModel)
  | waterPlane => inferInstanceAs (Node WaterPlane)
  | pointLight => inferInstanceAs (Node PointLight)
  | metadata => inferInstanceAs (Node Metadata)
  | mapChunk => inferInstanceAs (Node MapChunk)
  | lamp => inferInstanceAs (Node Lamp)
  | tagged => inferInstanceAs (Node Tagged)
  | nothing => inferInstanceAs (Node Nothing)
  | positive => inferInstanceAs (Node Positive)
  | label => inferInstanceAs (Node Label)
  | bare c => @Choice.toNode c.Carrier c.choice c.initial
  | variant c => @Node.variant c.Carrier c.choice
  | list item => @Node.list item.Carrier item.node

/-- How the values of a type of nodes judge themselves, if they do. -/
def inspect? : (t : NodeType) → Option (Inspect t.Carrier)
  | rectMesh => some (inferInstanceAs (Inspect RectMesh))
  | heightGrid => some (inferInstanceAs (Inspect HeightGrid))
  | vertexArray => some (inferInstanceAs (Inspect VertexArray))
  | material => some (inferInstanceAs (Inspect Material))
  | renderUnit => some (inferInstanceAs (Inspect RenderUnit))
  | transform => some (inferInstanceAs (Inspect Transform))
  | staticActor => some (inferInstanceAs (Inspect StaticActor))
  | embeddedModel => some (inferInstanceAs (Inspect EmbeddedModel))
  | importedModel => some (inferInstanceAs (Inspect ImportedModel))
  | waterPlane => some (inferInstanceAs (Inspect WaterPlane))
  | pointLight => some (inferInstanceAs (Inspect PointLight))
  | metadata => some (inferInstanceAs (Inspect Metadata))
  | mapChunk => some (inferInstanceAs (Inspect MapChunk))
  | positive => some (inferInstanceAs (Inspect Positive))
  | label => some (inferInstanceAs (Inspect Label))
  | bare c => c.inspect?
  | variant c => c.inspect?.map (@Inspect.variant c.Carrier c.choice)
  | list item => item.inspect?.map (@Inspect.list item.Carrier)
  | _ => none

/-- The names of the fields of a record; none for other nodes. -/
def fieldNames (t : NodeType) : List String :=
  match t.record? with
  | some _ => Record.fieldNames t.Carrier
  | none => []

/-- The name of the type in messages. -/
def path : NodeType → String
  | single => "map_node::leaf::FloatValue"
  | int32 => "map_node::leaf::IntValue"
  | bool => "map_node::leaf::BoolValue"
  | vec3 => "map_node::leaf::Vec3Value"
  | quaternion => "map_node::leaf::QuatValue"
  | identifier => "map_node::leaf::IdentStr"
  | floatBuffer => "map_node::leaf::FloatBuffer"
  | aabb => "map_geom::collider::Aabb"
  | sphere => "map_geom::collider::Sphere"
  | triangle => "map_geom::collider::Triangle"
  | triangleSoup => "map_geom::collider::TriangleSoup"
  | rectMesh => "map_geom::rect::RectMesh"
  | heightGrid => "map_geom::height_grid::HeightGrid"
  | vertexArray => "map_geom::vertex_array::VertexArray"
  | material => "map_compiler::schema::material::Material"
  | renderUnit => "map_compiler::schema::render_unit::RenderUnit"
  | transform => "map_compiler::schema::actor::Transform"
  | staticActor => "map_compiler::schema::actor::StaticActor"
  | embeddedModel => "map_compiler::schema::model::ModelEmbedded"
  | importedModel => "map_compiler::schema::model::ModelImported"
  | waterPlane => "map_compiler::schema::water::WaterPlane"
  | pointLight => "map_compiler::schema::light::LightPoint"
  | metadata => "map_compiler::schema::map_chunk::MapMetadata"
  | mapChunk => "map_compiler::schema::map_chunk::MapChunkBuilder"
  | lamp => "sample::Lamp"
  | tagged => "sample::Tagged"
  | nothing => "sample::Nothing"
  | positive => "sample::Positive"
  | label => "sample::Label"
  | bare c => c.path
  | variant c => "map_node::variant::Variant<" ++ c.path ++ ">"
  | list item => "map_node::list::UniformList<" ++ item.path ++ ">"

end NodeType

/-- A node of any type. -/
abbrev AnyNode : Type := Erased NodeType.Carrier

end MapDocument
