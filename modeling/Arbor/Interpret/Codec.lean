import Arbor.Json.Decode
import Arbor.Interpret.Plane
import Arbor.Interpret.Space
/-!
# Colours and interpreter configurations as JSON

A colour is the record `r`, `g`, `b`, `a` of bytes. A plane configuration is the record
`step_length`, `angle_degrees`, `color`, and a space configuration the record `step_length`,
`yaw_degrees`, `pitch_degrees`; every field of a configuration may be left out and then takes
its default. Records are read as objects or arrays (`openRecord`) and written as objects with
the fields in this order.
-/

namespace Arbor

namespace Color

/-- Reads a colour. -/
def decode : Decoder Color := fun j => do
  let r ← openRecord "struct Color"
    [.of "r" Decoder.byte, .of "g" Decoder.byte, .of "b" Decoder.byte, .of "a" Decoder.byte] j
  let red ← (r.slot 0).required Decoder.byte
  let green ← (r.slot 1).required Decoder.byte
  let blue ← (r.slot 2).required Decoder.byte
  let alpha ← (r.slot 3).required Decoder.byte
  r.finish
  pure ⟨red, green, blue, alpha⟩

/-- The JSON form of a colour. -/
def toJson (c : Color) : Json :=
  .obj [("r", .int c.r.toNat), ("g", .int c.g.toNat), ("b", .int c.b.toNat), ("a", .int c.a.toNat)]

end Color

namespace PlaneConfig

/-- Reads a plane configuration; absent fields take their defaults. -/
def decode : Decoder PlaneConfig := fun j => do
  let d : PlaneConfig := {}
  let r ← openRecord "struct Turtle2DConfig"
    [.of "step_length" Decoder.single, .of "angle_degrees" Decoder.single,
      .of "color" Color.decode] j
  let step ← (r.slot 0).withDefault Decoder.single d.stepLength
  let angle ← (r.slot 1).withDefault Decoder.single d.angleDegrees
  let color ← (r.slot 2).withDefault Color.decode d.color
  r.finish
  pure ⟨step, angle, color⟩

/-- The JSON form of a plane configuration. -/
def toJson (c : PlaneConfig) : Json :=
  .obj [("step_length", .single c.stepLength), ("angle_degrees", .single c.angleDegrees),
    ("color", c.color.toJson)]

end PlaneConfig

namespace SpaceConfig

/-- Reads a space configuration; absent fields take their defaults. -/
def decode : Decoder SpaceConfig := fun j => do
  let d : SpaceConfig := {}
  let r ← openRecord "struct Turtle3DConfig"
    [.of "step_length" Decoder.single, .of "yaw_degrees" Decoder.single,
      .of "pitch_degrees" Decoder.single] j
  let step ← (r.slot 0).withDefault Decoder.single d.stepLength
  let yaw ← (r.slot 1).withDefault Decoder.single d.yawDegrees
  let pitch ← (r.slot 2).withDefault Decoder.single d.pitchDegrees
  r.finish
  pure ⟨step, yaw, pitch⟩

/-- The JSON form of a space configuration. -/
def toJson (c : SpaceConfig) : Json :=
  .obj [("step_length", .single c.stepLength), ("yaw_degrees", .single c.yawDegrees),
    ("pitch_degrees", .single c.pitchDegrees)]

end SpaceConfig

end Arbor
