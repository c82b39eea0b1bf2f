import MapDocument.Geometry.Mesh
import MapDocument.Journal
/-!
# Geometry — height grids

Terrain as a grid of height samples, centered on the origin. Rows run along
z and columns along x, and the samples are stored row by row. Every cell of
the grid becomes two triangles.
-/

namespace MapDocument

/-- A grid of height samples. -/
structure HeightGrid where
  xLength : Single
  zLength : Single
  rows : Int32
  columns : Int32
  heights : FloatBuffer
  /-- Whether normals are averaged per sample instead of flat per triangle. -/
  smooth : Bool
deriving DecidableEq

instance : Record HeightGrid where
  name := "HeightGrid"
  fields := [field "x_len" (1 : Single), field "z_len" (1 : Single), field "rows" (2 : Int32),
    field "columns" (2 : Int32), field "heights" (⟨[0, 0, 0, 0]⟩ : FloatBuffer),
    field "smooth" false]
  split g := (g.xLength, g.zLength, g.rows, g.columns, g.heights, g.smooth, ())
  join
    | (xLength, zLength, rows, columns, heights, smooth, ()) =>
      ⟨xLength, zLength, rows, columns, heights, smooth⟩

namespace HeightGrid

/-- A number of rows or columns as a four-byte integer. -/
def count (n : Nat) (what : String) : Except Error Int32 :=
  if n < 0x80000000 then .ok (Int32.ofNat n) else .error (Fault.tooMany n what)

/-- A flat grid. -/
def flat (xLength zLength : Single) (rows columns : Nat) : Except Error HeightGrid := do
  let rowCount ← count rows "rows"
  let columnCount ← count columns "columns"
  return { xLength, zLength, rows := rowCount, columns := columnCount,
           heights := ⟨List.replicate (rows * columns) .zero⟩, smooth := false }

/-- Numbers of rows and columns, if the grid is large enough and has a sample for each place. -/
def dims (g : HeightGrid) : Except Error (Nat × Nat) :=
  let rows := g.rows.toInt
  let columns := g.columns.toInt
  if rows < 2 ∨ columns < 2 then .error (Fault.smallGrid rows columns)
  else if g.heights.values.length ≠ rows.toNat * columns.toNat then
    .error (Fault.sampleCount g.heights.values.length rows.toNat columns.toNat)
  else .ok (rows.toNat, columns.toNat)

/-- Sets the height at column `x` and row `z`. -/
def setHeight (x z : Nat) (height : Single) : Edit HeightGrid Unit := do
  let (rows, columns) ← Edit.check (← get).dims
  if x < columns ∧ z < rows then
    modify fun g => { g with heights := ⟨g.heights.values.set (z * columns + x) height⟩ }
  else Edit.refuse (Fault.sampleOutside x z columns rows)

/-! ## Samples -/

/-- A grid whose dimensions have been checked. -/
structure Sampler where
  xLength : Single
  zLength : Single
  rows : Nat
  columns : Nat
  heights : Array Single

/-- The samples of a grid. -/
def sampler (g : HeightGrid) : Except Error Sampler := do
  let (rows, columns) ← g.dims
  return ⟨g.xLength, g.zLength, rows, columns, g.heights.values.toArray⟩

namespace Sampler

/-- The height at column `x` and row `z`. -/
def heightAt (s : Sampler) (x z : Nat) : Single := s.heights.getD (z * s.columns + x) .zero

/-- How far along a side of the grid a place is, from zero to one. -/
def share (i count : Nat) : Single := .ofNat i / .ofNat (count - 1)

/-- Position of a sample. -/
def pointAt (s : Sampler) (x z : Nat) : Vec3 :=
  ⟨s.xLength * (share x s.columns - 0.5), s.heightAt x z, s.zLength * (share z s.rows - 0.5)⟩

/-- Texture coordinates of a sample. -/
def texcoordAt (s : Sampler) (x z : Nat) : Vec2 := ⟨share x s.columns, share z s.rows⟩

/-- Positions of the neighbors of a sample, in the order in which the cross
products of consecutive ones point up; none where the grid ends. -/
def neighbors (s : Sampler) (x z : Nat) : List (Option Vec3) :=
  [if 0 < z then some (s.pointAt x (z - 1)) else none,
   if 0 < x then some (s.pointAt (x - 1) z) else none,
   if z + 1 < s.rows then some (s.pointAt x (z + 1)) else none,
   if x + 1 < s.columns then some (s.pointAt (x + 1) z) else none]

/-- The unit normal between two edges that start at a sample, if both are there. -/
def cornerNormal (center : Vec3) : Option Vec3 → Option Vec3 → Option Vec3
  | some a, some b => some ((a - center).cross (b - center)).normalizedOrZero
  | _, _ => none

/-- The unit normals between consecutive edges that start at a sample. -/
def cornerNormals (s : Sampler) (x z : Nat) : List Vec3 :=
  match s.neighbors x z with
  | first :: rest =>
    (List.zipWith (cornerNormal (s.pointAt x z)) (first :: rest) (rest ++ [first])).filterMap id
  | [] => []

/-- Mean of the normals around a sample. Border samples have fewer of them. -/
def pointNormal (s : Sampler) (x z : Nat) : Except Error Vec3 :=
  let normals := s.cornerNormals x z
  if normals.isEmpty then .error (Fault.loneSample x z)
  else .ok (normals.foldl (· + ·) Vec3.zero / (.ofNat normals.length : Single)).normalizedOrZero

/-- The places of a grid row by row, as columns and rows. -/
def places (s : Sampler) : List (Nat × Nat) :=
  (List.range s.rows).flatMap fun z => (List.range s.columns).map fun x => (x, z)

/-- The normals of all samples row by row. -/
def pointNormals (s : Sampler) : Except Error (List Vec3) :=
  s.places.mapM fun (x, z) => s.pointNormal x z

/-- The corners of the cell whose least column and row are given. -/
def cell (x z : Nat) : List (Nat × Nat) :=
  triangulateQuad (x, z) (x, z + 1) (x + 1, z + 1) (x + 1, z)

/-- The cells of the grid column by column. -/
def cells (s : Sampler) : List (Nat × Nat) :=
  (List.range (s.columns - 1)).flatMap fun x => (List.range (s.rows - 1)).map fun z => (x, z)

/-- The normals of the two triangles of a cell, one for each corner. -/
def faceNormals (s : Sampler) (x z : Nat) : List Vec3 :=
  match (cell x z).map fun (x, z) => s.pointAt x z with
  | [a, b, c, d, e, f] =>
    let n1 := triangleNormal a b c
    let n2 := triangleNormal d e f
    [n1, n1, n1, n2, n2, n2]
  | _ => []

/-- The normals of the corners of a cell, taken from the normals of all samples. -/
def sampleNormals (s : Sampler) (normals : Array Vec3) (x z : Nat) : List Vec3 :=
  (cell x z).map fun (x, z) => normals.getD (z * s.columns + x) Vec3.zero

/-- The corners of a cell with the given normals. -/
def cellCorners (s : Sampler) (x z : Nat) (normals : List Vec3) : List MeshVertex :=
  List.zipWith (fun (x, z) n => ⟨s.pointAt x z, s.texcoordAt x z, n⟩) (cell x z) normals

/-- The triangles of all cells. -/
def mesh (s : Sampler) (normalsOf : Nat → Nat → List Vec3) : Mesh :=
  Mesh.ofCorners (s.cells.flatMap fun (x, z) => s.cellCorners x z (normalsOf x z))

end Sampler

/-- The triangles of the grid. -/
def buildMesh (g : HeightGrid) : Except Error Mesh := do
  let s ← g.sampler
  if g.smooth then
    let normals := (← s.pointNormals).toArray
    return s.mesh (s.sampleNormals normals)
  else return s.mesh s.faceNormals

instance : Inspect HeightGrid where
  findings g :=
    let rows := g.rows.toInt
    let columns := g.columns.toInt
    let samples := g.heights.values.length
    let size :=
      if rows < 2 ∨ columns < 2 then
        Findings.note .error s!"needs at least 2x2 samples, got {rows} rows and {columns} columns"
      else
        Findings.noteIf (samples ≠ rows.toNat * columns.toNat) .error
          s!"{samples} height samples do not match {rows} rows times {columns} columns"
    size ++ Findings.noteIf (g.xLength.equals .zero || g.zLength.equals .zero) .warn
      "grid has zero extent"

end HeightGrid

end MapDocument
