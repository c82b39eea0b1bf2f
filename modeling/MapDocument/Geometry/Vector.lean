import MapDocument.FloatingPoint.Basic
/-!
# Geometry — vectors

Vectors of four-byte numbers. All arithmetic is component by component in
the order written here; nothing is fused or reassociated.
-/

namespace MapDocument

/-- Texture coordinates. -/
structure Vec2 where
  x : Single
  y : Single
deriving DecidableEq

/-- A position, direction or color. -/
structure Vec3 where
  x : Single
  y : Single
  z : Single
deriving DecidableEq

/-- An orientation. -/
structure Quaternion where
  x : Single
  y : Single
  z : Single
  w : Single
deriving DecidableEq

namespace Vec3

/-- The origin. -/
def zero : Vec3 := ⟨.zero, .zero, .zero⟩

instance : Inhabited Vec3 := ⟨zero⟩

/-- A function of two numbers, on each axis. -/
def map2 (f : Single → Single → Single) (a b : Vec3) : Vec3 := ⟨f a.x b.x, f a.y b.y, f a.z b.z⟩

instance : Add Vec3 := ⟨map2 (· + ·)⟩
instance : Sub Vec3 := ⟨map2 (· - ·)⟩
instance : Neg Vec3 := ⟨fun a => ⟨-a.x, -a.y, -a.z⟩⟩
instance : HMul Vec3 Single Vec3 := ⟨fun a s => ⟨a.x * s, a.y * s, a.z * s⟩⟩
instance : HDiv Vec3 Single Vec3 := ⟨fun a s => ⟨a.x / s, a.y / s, a.z / s⟩⟩

/-- The lesser number on each axis. -/
def min (a b : Vec3) : Vec3 := map2 FloatingPoint.min a b

/-- The greater number on each axis. -/
def max (a b : Vec3) : Vec3 := map2 FloatingPoint.max a b

/-- Inner product. -/
def dot (a b : Vec3) : Single := a.x * b.x + a.y * b.y + a.z * b.z

/-- Cross product. -/
def cross (a b : Vec3) : Vec3 :=
  ⟨a.y * b.z - a.z * b.y, a.z * b.x - a.x * b.z, a.x * b.y - a.y * b.x⟩

/-- Square of the length. -/
def squaredLength (a : Vec3) : Single := a.dot a

/-- Length. -/
def length (a : Vec3) : Single := a.squaredLength.sqrt

/-- Equality of the values on every axis. -/
def equals (a b : Vec3) : Bool := a.x.equals b.x && a.y.equals b.y && a.z.equals b.z

/-- The components. -/
def toList (a : Vec3) : List Single := [a.x, a.y, a.z]

/-- The unit vectors. -/
def unitX : Vec3 := ⟨1, 0, 0⟩

@[inherit_doc unitX]
def unitY : Vec3 := ⟨0, 1, 0⟩

@[inherit_doc unitX]
def unitZ : Vec3 := ⟨0, 0, 1⟩

end Vec3

namespace Quaternion

/-- No rotation. -/
def identity : Quaternion := ⟨0, 0, 0, 1⟩

instance : Inhabited Quaternion := ⟨identity⟩

/-- Equality of the values of all components. -/
def equals (a b : Quaternion) : Bool :=
  a.x.equals b.x && a.y.equals b.y && a.z.equals b.z && a.w.equals b.w

/-- Exactly no rotation; any other one, however small, is a rotation. -/
def isIdentity (a : Quaternion) : Bool := a.equals identity

/-- The components. -/
def toList (a : Quaternion) : List Single := [a.x, a.y, a.z, a.w]

end Quaternion

namespace Vec2

/-- The components. -/
def toList (a : Vec2) : List Single := [a.x, a.y]

end Vec2

end MapDocument
