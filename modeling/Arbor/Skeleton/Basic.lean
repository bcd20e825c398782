import Arbor.Skeleton.Branch
/-!
# Skeletons

A skeleton is an array of bones, the root at index `0`, and its branches. Bones are looked up by
index, and every query drops an index that names no bone: `parent`, `children`, `leaves` and
`branchPoints` return bones that exist.

The mass of a bone is that of a solid cylinder whose radius is the given radius times the bone's
thickness and whose height is the bone's length: `((π r²) · 2) · (h / 2)` times the density, in
single precision. The total mass adds the masses of the bones, looked up by the indices the bones
carry, from the left starting at `-0`.
-/

namespace Arbor

/-- Bones and their branches. -/
structure Skeleton where
  bones : Array Bone := #[]
  branches : List Branch := []

/-- The mass of a solid cylinder of radius `r` and height `h` at the given density. -/
def cylinderMass (r h density : Float32) : Float32 :=
  piSingle * (r * r) * 2 * (h / 2) * density

namespace Skeleton

/-- The number of bones. -/
def size (s : Skeleton) : Nat := s.bones.size

/-- The bone at an index. -/
def bone? (s : Skeleton) (i : Nat) : Option Bone := s.bones[i]?

/-- The root: the first bone. -/
def root? (s : Skeleton) : Option Bone := s.bone? 0

/-- The parent of the bone at `i`, if both exist. -/
def parent? (s : Skeleton) (i : Nat) : Option Bone :=
  (s.bone? i).bind fun b => b.parent.bind s.bone?

/-- The children of the bone at `i` that exist. -/
def children (s : Skeleton) (i : Nat) : List Bone :=
  match s.bone? i with
  | some b => b.children.filterMap s.bone?
  | none => []

/-- The bones without children, in order. -/
def leaves (s : Skeleton) : List Bone := s.bones.toList.filter Bone.isLeaf

/-- The last bones of the branches that end at a branch point, in branch order. -/
def branchPoints (s : Skeleton) : List Bone :=
  (s.branches.filter (·.kind == .branchPoint)).filterMap fun b => b.last?.bind s.bone?

/-- The mass of the bone at `i` as a cylinder of radius `radius · thickness`. -/
def segmentMass? (s : Skeleton) (i : Nat) (density radius : Float32) : Option Float32 :=
  (s.bone? i).map fun b => cylinderMass (radius * b.props.thickness) b.length density

/-- The sum of the masses of the bones, each looked up by the index it carries. -/
def totalMass (s : Skeleton) (density radius : Float32) : Float32 :=
  (s.bones.toList.filterMap fun b => s.segmentMass? b.id density radius).foldl (· + ·) (-0)

end Skeleton

end Arbor
