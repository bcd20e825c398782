import Arbor.Geometry.Quat
/-!
# Bones

A bone is one straight segment of a skeleton, from its base to its tip, with the orientation the
turtle had while laying it. Bones refer to each other by index: a bone names its parent and its
children. Each bone carries properties inherited along the tree: its depth below the root, how
many branches open on the way to it, and two factors for length and thickness.
-/

namespace Arbor

/-- Properties a bone inherits from its parent. -/
structure BoneProps where
  /-- Bones between this one and the root; the root has depth `0`. -/
  depth : Nat
  /-- Branch openings on the path from the root. -/
  branchOrder : Nat
  lengthFactor : Float32
  thickness : Float32

/-- One straight segment of a skeleton. -/
structure Bone where
  id : Nat
  parent : Option Nat
  children : List Nat
  base : Vec3
  tip : Vec3
  rotation : Quat
  props : BoneProps
  /-- The first bone laid after a branch opened: it starts a branch of its own even when it is
  its parent's only child. -/
  startsBranch : Bool

namespace Bone

/-- The distance from base to tip. -/
def length (b : Bone) : Float32 := b.base.distance b.tip

/-- The unit direction from base to tip, or zero for a degenerate bone. -/
def direction (b : Bone) : Vec3 := (b.tip - b.base).normalizeOrZero

/-- A bone without children. -/
def isLeaf (b : Bone) : Bool := b.children.isEmpty

end Bone

end Arbor
