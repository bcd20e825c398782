import Arbor.Geometry.Quat
import Arbor.Fault
/-!
# The space turtle

A space turtle has a pose (position and orientation) and a stack of saved poses, and it keeps a
trace of the events that changed it. It moves along its local second axis (`forward`); its local
first axis is `right` and its local third axis `normal`. A turn of `yaw` and `pitch` degrees
composes the orientation with a rotation about the local third axis by `yaw`, then about the
(new) local first axis by `pitch`; orientations are never renormalized.

Every move, turn, push and successful pop appends its event to the trace. A pop with nothing
saved fails with `Fault.stackUnderflow` and changes neither the pose, the stack nor the trace.
-/

namespace Arbor

/-- Where a space turtle stands and which way it faces. -/
structure SpacePose where
  position : Vec3 := Vec3.zero
  rotation : Quat := Quat.identity

namespace SpacePose

/-- The local second axis, along which the turtle moves. -/
def forward (p : SpacePose) : Vec3 := p.rotation.rotate Vec3.unitY

/-- The local first axis. -/
def right (p : SpacePose) : Vec3 := p.rotation.rotate Vec3.unitX

/-- The local third axis. -/
def normal (p : SpacePose) : Vec3 := p.rotation.rotate Vec3.unitZ

/-- Turns about the local first axis by `angle` radians. -/
def rotateLocalX (p : SpacePose) (angle : Float32) : SpacePose :=
  { p with rotation := p.rotation * Quat.ofAxisAngle Vec3.unitX angle }

/-- Turns about the local third axis by `angle` radians. -/
def rotateLocalZ (p : SpacePose) (angle : Float32) : SpacePose :=
  { p with rotation := p.rotation * Quat.ofAxisAngle Vec3.unitZ angle }

/-- Turns by `yaw` degrees about the local third axis, then `pitch` degrees about the local
first. -/
def turn (p : SpacePose) (yaw pitch : Float32) : SpacePose :=
  (p.rotateLocalZ (toRadians yaw)).rotateLocalX (toRadians pitch)

/-- The point `distance` ahead. -/
def ahead (p : SpacePose) (distance : Float32) : Vec3 := p.position + p.forward.scale distance

end SpacePose

/-- A change of a space turtle, as recorded in its trace. -/
inductive Event
  /-- A straight move from `src` to `dst`, made with orientation `rotation`. -/
  | move (src dst : Vec3) (rotation : Quat)
  /-- A turn, in degrees. -/
  | rotate (yaw pitch : Float32)
  | push
  | pop

/-- A space turtle: pose, saved poses (latest first) and trace. -/
structure SpaceTurtle where
  pose : SpacePose := {}
  saved : List SpacePose := []
  events : Array Event := #[]

namespace SpaceTurtle

/-- A turtle at `pose`, nothing saved, empty trace. -/
def startingAt (pose : SpacePose) : SpaceTurtle := { pose }

/-- How many poses are saved. -/
def depth (t : SpaceTurtle) : Nat := t.saved.length

/-- Moves `distance` along the forward axis. -/
def moveForward (t : SpaceTurtle) (distance : Float32) : SpaceTurtle :=
  match t with
  | ⟨pose, saved, events⟩ =>
    let dst := pose.ahead distance
    ⟨{ pose with position := dst }, saved, events.push (.move pose.position dst pose.rotation)⟩

/-- Turns by `yaw`, then `pitch` degrees. -/
def rotate (t : SpaceTurtle) (yaw pitch : Float32) : SpaceTurtle :=
  match t with
  | ⟨pose, saved, events⟩ => ⟨pose.turn yaw pitch, saved, events.push (.rotate yaw pitch)⟩

/-- Saves the pose. -/
def push (t : SpaceTurtle) : SpaceTurtle :=
  match t with
  | ⟨pose, saved, events⟩ => ⟨pose, pose :: saved, events.push .push⟩

/-- Restores the last saved pose; with nothing saved, reports `Fault.stackUnderflow` and returns
the turtle unchanged. -/
def pop (t : SpaceTurtle) : SpaceTurtle × Option Fault :=
  match t with
  | ⟨pose, [], events⟩ => (⟨pose, [], events⟩, some .stackUnderflow)
  | ⟨_, p :: rest, events⟩ => (⟨p, rest, events.push .pop⟩, none)

end SpaceTurtle

/-- A primitive step of a space turtle. -/
inductive SpaceStep
  | move (distance : Float32)
  | rotate (yaw pitch : Float32)
  | push
  | pop

/-- Performs one step: the turtle after it, and the fault if it failed (the turtle then
unchanged). -/
def SpaceStep.run (t : SpaceTurtle) : SpaceStep → SpaceTurtle × Option Fault
  | .move d => (t.moveForward d, none)
  | .rotate y p => (t.rotate y p, none)
  | .push => (t.push, none)
  | .pop => t.pop

end Arbor
