import Arbor.Geometry.Angle
/-!
# Plane vectors

Pairs of single-precision numbers, with the componentwise operations of the plane. Each
operation rounds once per component, in the order written.
-/

namespace Arbor

/-- A vector of the plane. -/
structure Vec2 where
  x : Float32
  y : Float32

namespace Vec2

/-- The origin. -/
def zero : Vec2 := ⟨0, 0⟩

instance : Add Vec2 := ⟨fun a b => ⟨a.x + b.x, a.y + b.y⟩⟩
instance : Sub Vec2 := ⟨fun a b => ⟨a.x - b.x, a.y - b.y⟩⟩

/-- Scaling by a number. -/
def scale (a : Vec2) (s : Float32) : Vec2 := ⟨a.x * s, a.y * s⟩

/-- `a.x · b.x + a.y · b.y`. -/
def dot (a b : Vec2) : Float32 := a.x * b.x + a.y * b.y

/-- Euclidean length. -/
def length (a : Vec2) : Float32 := (a.dot a).sqrt

/-- Distance between two points. -/
def distance (a b : Vec2) : Float32 := (a - b).length

/-- The unit vector at `angle` radians from the first axis: `(cos, sin)`. -/
def ofAngle (angle : Float32) : Vec2 := ⟨angle.cos, angle.sin⟩

/-- The smaller of two numbers; `b` unless `a < b`. -/
def lesser (a b : Float32) : Float32 := if a < b then a else b

/-- The larger of two numbers; `b` unless `a > b`. -/
def greater (a b : Float32) : Float32 := if b < a then a else b

/-- Componentwise minimum. -/
def min (a b : Vec2) : Vec2 := ⟨lesser a.x b.x, lesser a.y b.y⟩

/-- Componentwise maximum. -/
def max (a b : Vec2) : Vec2 := ⟨greater a.x b.x, greater a.y b.y⟩

end Vec2

end Arbor
