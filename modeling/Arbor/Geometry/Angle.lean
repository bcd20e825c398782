/-!
# Angles

Angles are given in degrees and turned into radians by one multiplication in single precision by
the single-precision quotient of `π` and `180`. `sinCos` is the pair of the platform's
single-precision sine and cosine.
-/

namespace Arbor

/-- `π` rounded to single precision. -/
def piSingle : Float32 := Float32.ofBits 0x40490fdb

/-- Radians per degree: `π / 180` in single precision. -/
def radiansPerDegree : Float32 := piSingle / 180

/-- Degrees to radians. -/
def toRadians (deg : Float32) : Float32 := deg * radiansPerDegree

end Arbor
