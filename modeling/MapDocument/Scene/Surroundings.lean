import MapDocument.Node.Leaf
import MapDocument.Node.Record
import MapDocument.Journal
/-!
# Scene — surroundings

Water and light.
-/

namespace MapDocument

/-- A rectangular stretch of water. -/
structure WaterPlane where
  center : Vec3
  width : Single
  height : Single
  flowSpeed : Single
  waveStrength : Single
  /-- Depth at which the water takes on its deep color. -/
  darkestDepth : Single
  deepColor : Vec3
  reflectivity : Single
deriving DecidableEq

instance : Record WaterPlane where
  name := "WaterPlane"
  fields := [field "center" Vec3.zero, field "width" (1 : Single), field "height" (1 : Single),
    field "flow_speed" (0.03 : Single), field "wave_streng" (0.02 : Single),
    field "darkest_depth" (5 : Single), field "deep_color" (⟨0.07, 0.07, 0.15⟩ : Vec3),
    field "reflectivity" (0.1 : Single)]
  split w := (w.center, w.width, w.height, w.flowSpeed, w.waveStrength, w.darkestDepth, w.deepColor,
    w.reflectivity, ())
  join
    | (center, width, height, flowSpeed, waveStrength, darkestDepth, deepColor, reflectivity, ()) =>
      ⟨center, width, height, flowSpeed, waveStrength, darkestDepth, deepColor, reflectivity⟩

instance : Inspect WaterPlane where
  findings w :=
    Findings.noteIf (w.width.equals .zero) .warn "width is zero" ++
    Findings.noteIf (w.height.equals .zero) .warn "height is zero"

/-- A light that shines in all directions. -/
structure PointLight where
  color : Vec3
  position : Vec3
  maxDistance : Single
deriving DecidableEq

instance : Record PointLight where
  name := "LightPoint"
  fields := [field "color" (⟨1, 1, 1⟩ : Vec3), field "pos" Vec3.zero, field "max_dist" (5 : Single)]
  split l := (l.color, l.position, l.maxDistance, ())
  join | (color, position, maxDistance, ()) => ⟨color, position, maxDistance⟩

instance : Inspect PointLight where
  findings l :=
    Findings.noteIf (l.maxDistance.le .zero) .warn
      s!"max distance {FloatLayout.plain.text l.maxDistance} lights nothing"

end MapDocument
