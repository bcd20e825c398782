import Arbor.Geometry.Angle
/-!
# Space vectors

Triples of single-precision numbers. Each operation rounds once per step, in the order written:
a dot product is `(x·x' + y·y') + z·z'`, a cross product component is a difference of two
rounded products.
-/

namespace Arbor

/-- A vector of space. -/
structure Vec3 where
  x : Float32
  y : Float32
  z : Float32

namespace Vec3

/-- The origin. -/
def zero : Vec3 := ⟨0, 0, 0⟩

/-- The first axis. -/
def unitX : Vec3 := ⟨1, 0, 0⟩

/-- The second axis, along which a turtle moves. -/
def unitY : Vec3 := ⟨0, 1, 0⟩

/-- The third axis. -/
def unitZ : Vec3 := ⟨0, 0, 1⟩

instance : Add Vec3 := ⟨fun a b => ⟨a.x + b.x, a.y + b.y, a.z + b.z⟩⟩
instance : Sub Vec3 := ⟨fun a b => ⟨a.x - b.x, a.y - b.y, a.z - b.z⟩⟩

/-- Scaling by a number. -/
def scale (a : Vec3) (s : Float32) : Vec3 := ⟨a.x * s, a.y * s, a.z * s⟩

/-- `(a.x · b.x + a.y · b.y) + a.z · b.z`. -/
def dot (a b : Vec3) : Float32 := a.x * b.x + a.y * b.y + a.z * b.z

/-- The cross product. -/
def cross (a b : Vec3) : Vec3 :=
  ⟨a.y * b.z - a.z * b.y, a.z * b.x - a.x * b.z, a.x * b.y - a.y * b.x⟩

/-- Euclidean length. -/
def length (a : Vec3) : Float32 := (a.dot a).sqrt

/-- Distance between two points. -/
def distance (a b : Vec3) : Float32 := (a - b).length

/-- The vector scaled by the reciprocal of its length, or zero when that reciprocal is not a
positive finite number (a zero, tiny, huge or NaN vector). -/
def normalizeOrZero (a : Vec3) : Vec3 :=
  let rcp := 1 / a.length
  if rcp.isFinite && 0 < rcp then a.scale rcp else zero

end Vec3

end Arbor
