import Arbor.Geometry.Vec3
/-!
# Quaternions

Rotations of space as quaternions `(x, y, z, w)` of single-precision numbers, never
renormalized. The Hamilton product and the rotation of a vector round in a fixed order, four
lanes at a time:

* each component of `a * b` is a sum of two sums of two products, with the products paired as
  in `Quat.mul`;
* `q.rotate v` is `(v · (w² - |u|²) + u · (2 (u · v))) + (u × v) · 2w`, `u` the vector part.
-/

namespace Arbor

/-- A quaternion `x i + y j + z k + w`. -/
structure Quat where
  x : Float32
  y : Float32
  z : Float32
  w : Float32

namespace Quat

/-- The identity rotation. -/
def identity : Quat := ⟨0, 0, 0, 1⟩

/-- The vector part. -/
def vec (q : Quat) : Vec3 := ⟨q.x, q.y, q.z⟩

/-- The Hamilton product `a * b`: apply `b`, then `a`. -/
def mul (a b : Quat) : Quat :=
  ⟨(a.w * b.x + a.x * b.w) + (a.y * b.z + -(a.z * b.y)),
   (a.w * b.y + -(a.x * b.z)) + (a.y * b.w + a.z * b.x),
   (a.w * b.z + a.x * b.y) + (-(a.y * b.x) + a.z * b.w),
   (a.w * b.w + -(a.x * b.x)) + (-(a.y * b.y) + -(a.z * b.z))⟩

instance : Mul Quat := ⟨mul⟩

/-- The rotation by `angle` radians about a unit `axis`:
`(axis · sin (angle/2), cos (angle/2))`. -/
def ofAxisAngle (axis : Vec3) (angle : Float32) : Quat :=
  let half := angle * 0.5
  let v := axis.scale half.sin
  ⟨v.x, v.y, v.z, half.cos⟩

/-- The image of a vector under the rotation. -/
def rotate (q : Quat) (v : Vec3) : Vec3 :=
  let u := q.vec
  let uu := u.dot u
  let a := v.scale (q.w * q.w - uu)
  let b := u.scale (u.dot v * 2)
  let c := (u.cross v).scale (q.w * 2)
  (a + b) + c

end Quat

end Arbor
