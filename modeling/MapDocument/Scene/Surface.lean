import MapDocument.Node.Leaf
import MapDocument.Node.Record
import MapDocument.Journal
/-!
# Scene — surfaces

The look of what is drawn. Texture maps are named by resource identifiers.
-/

namespace MapDocument

/-- The look of a surface. -/
structure Material where
  roughness : Single
  metallic : Single
  texScaleX : Single
  texScaleY : Single
  shininess : Single
  specularStrength : Single
  reflectivity : Single
  diffuseMap : Identifier
  roughnessMap : Identifier
  metallicMap : Identifier
deriving DecidableEq

instance : Record Material where
  name := "Material"
  fields := [field "roughness" (0.5 : Single), field "metallic" (0 : Single),
    field "tex_scale_x" (1 : Single), field "tex_scale_y" (1 : Single),
    field "shininess" (32 : Single), field "spec_strength" (1 : Single),
    field "reflectivity" (0 : Single), field "diffuse_map" Identifier.empty,
    field "roughness_map" Identifier.empty, field "metallic_map" Identifier.empty]
  split m := (m.roughness, m.metallic, m.texScaleX, m.texScaleY, m.shininess, m.specularStrength,
    m.reflectivity, m.diffuseMap, m.roughnessMap, m.metallicMap, ())
  join
    | (roughness, metallic, texScaleX, texScaleY, shininess, specularStrength, reflectivity,
        diffuseMap, roughnessMap, metallicMap, ()) =>
      ⟨roughness, metallic, texScaleX, texScaleY, shininess, specularStrength, reflectivity,
        diffuseMap, roughnessMap, metallicMap⟩

instance : Inspect Material where
  findings m :=
    Findings.noteIf (m.texScaleX.equals .zero) .error "texture scale x is zero" ++
    Findings.noteIf (m.texScaleY.equals .zero) .error "texture scale y is zero" ++
    Findings.noteIf m.diffuseMap.isEmpty .error "diffuse map is not defined"

end MapDocument
