import Arbor.Render.Canvas
import Arbor.Fault
/-!
# The plane turtle

A plane turtle has a pose (position, heading in degrees and pen colour) and a stack of saved
poses. Heading `0` points along the first axis and `90` along the second. Moving adds the unit
vector of the heading, scaled by the distance, to the position; turning adds degrees to the
heading. A pop restores the last saved pose; with nothing saved it reports
`Fault.stackUnderflow` and changes nothing.

`PlaneStep` lists the primitive steps, and `PlaneStep.run` performs one on a turtle and a
canvas.
-/

namespace Arbor

/-- Where a plane turtle stands and what its pen draws with. -/
structure PlanePose where
  position : Vec2
  heading : Float32
  color : Color := Color.black

/-- The unit vector of the heading. -/
def PlanePose.direction (p : PlanePose) : Vec2 := Vec2.ofAngle (toRadians p.heading)

/-- A plane turtle: its pose and the poses it saved, the latest first. -/
structure PlaneTurtle where
  pose : PlanePose
  saved : List PlanePose := []

namespace PlaneTurtle

/-- A turtle at `origin` with the given heading, black pen and nothing saved. -/
def atOrigin (origin : Vec2) (heading : Float32) : PlaneTurtle :=
  ⟨⟨origin, heading, Color.black⟩, []⟩

/-- How many poses are saved. -/
def depth (t : PlaneTurtle) : Nat := t.saved.length

/-- The point `distance` ahead. -/
def ahead (t : PlaneTurtle) (distance : Float32) : Vec2 :=
  t.pose.position + t.pose.direction.scale distance

/-- Moves `distance` along the heading. -/
def advance (t : PlaneTurtle) (distance : Float32) : PlaneTurtle :=
  { t with pose := { t.pose with position := t.ahead distance } }

/-- Adds `deg` degrees to the heading. -/
def rotate (t : PlaneTurtle) (deg : Float32) : PlaneTurtle :=
  { t with pose := { t.pose with heading := t.pose.heading + deg } }

/-- Changes the pen colour. -/
def setColor (t : PlaneTurtle) (c : Color) : PlaneTurtle :=
  { t with pose := { t.pose with color := c } }

/-- Saves the pose. -/
def push (t : PlaneTurtle) : PlaneTurtle := { t with saved := t.pose :: t.saved }

/-- Restores the last saved pose; with nothing saved, reports `Fault.stackUnderflow` and returns
the turtle unchanged. -/
def pop (t : PlaneTurtle) : PlaneTurtle × Option Fault :=
  match t with
  | ⟨pose, []⟩ => (⟨pose, []⟩, some .stackUnderflow)
  | ⟨_, p :: rest⟩ => (⟨p, rest⟩, none)

/-- Restores `n` times, stopping at the first restore that fails. Every restore that succeeds
drops a saved pose, so at most `depth + 1` of them are tried, however large `n` is. -/
def popTimes (t : PlaneTurtle) : Nat → PlaneTurtle × Option Fault
  | 0 => (t, none)
  | n + 1 =>
    match t.pop with
    | (t, none) => t.popTimes n
    | stopped => stopped

end PlaneTurtle

/-- A primitive step of a plane turtle. -/
inductive PlaneStep
  /-- Move without drawing. -/
  | advance (distance : Float32)
  /-- Move and draw the segment travelled. -/
  | draw (distance : Float32)
  | rotate (deg : Float32)
  | push
  | pop
  /-- Restore `n` times, stopping at the first restore that fails. -/
  | popTimes (n : Nat)
  /-- Mark the current position on the canvas. -/
  | mark
  | setColor (c : Color)

/-- Performs one step on a turtle and its canvas: both after it, and the fault if it failed
(both then unchanged). -/
def PlaneStep.run (t : PlaneTurtle) (c : Canvas) :
    PlaneStep → PlaneTurtle × Canvas × Option Fault
  | .advance d => (t.advance d, c, none)
  | .draw d => (t.advance d, c.drawLine t.pose.position (t.ahead d) t.pose.color, none)
  | .rotate deg => (t.rotate deg, c, none)
  | .push => (t.push, c, none)
  | .pop => let (t, f) := t.pop; (t, c, f)
  | .popTimes n => let (t, f) := t.popTimes n; (t, c, f)
  | .mark => (t, c.markPoint t.pose.position, none)
  | .setColor col => (t.setColor col, c, none)

end Arbor
