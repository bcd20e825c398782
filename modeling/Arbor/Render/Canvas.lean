import Arbor.Render.Color
import Arbor.Geometry.Vec2
/-!
# Canvases

A canvas keeps what a plane turtle draws: segments with their pen colour and marked points, each
in the order they arrived. It does not clip or rasterize; coordinates may be anywhere.

`Canvas.bounds` is the box spanned by every segment end (both ends, segment by segment) and then
every marked point, or `none` for an empty canvas. The box grows by componentwise minimum and
maximum, each keeping the running bound unless the new coordinate is strictly beyond it.
-/

namespace Arbor

/-- A drawn segment from `a` to `b`. -/
structure Segment where
  a : Vec2
  b : Vec2
  color : Color

/-- The length of a segment. -/
def Segment.length (s : Segment) : Float32 := s.a.distance s.b

/-- Segments and marked points, in drawing order. -/
structure Canvas where
  lines : Array Segment := #[]
  points : Array Vec2 := #[]

namespace Canvas

/-- The empty canvas. -/
def empty : Canvas := {}

/-- Adds a segment. -/
def drawLine (c : Canvas) (a b : Vec2) (color : Color) : Canvas :=
  match c with
  | ⟨lines, points⟩ => ⟨lines.push ⟨a, b, color⟩, points⟩

/-- Adds a marked point. -/
def markPoint (c : Canvas) (p : Vec2) : Canvas :=
  match c with
  | ⟨lines, points⟩ => ⟨lines, points.push p⟩

/-- Forgets everything drawn. -/
def clear (_ : Canvas) : Canvas := empty

/-- Every point the bounds cover: both ends of each segment, then the marked points. -/
def corners (c : Canvas) : List Vec2 :=
  (c.lines.toList.flatMap fun s => [s.a, s.b]) ++ c.points.toList

/-- Extends a box by a point. -/
def grow : Option (Vec2 × Vec2) → Vec2 → Option (Vec2 × Vec2)
  | none, p => some (p, p)
  | some (lo, hi), p => some (lo.min p, hi.max p)

/-- The smallest box, as `(min, max)`, around every segment end and marked point. -/
def bounds (c : Canvas) : Option (Vec2 × Vec2) := c.corners.foldl grow none

end Canvas

end Arbor
