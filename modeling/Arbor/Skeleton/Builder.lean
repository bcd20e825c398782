import Arbor.Skeleton.Basic
import Arbor.Turtle.Space
import Arbor.Fault
/-!
# Building skeletons from a turtle's trace

A builder listens to the events of a space turtle. Every move lays a bone from where the move
started to where it ended; the bone hangs from the *focus*, the bone laid last at the current
bracket level. A push remembers the focus and marks that the next bone opens a branch; a pop
returns to the remembered focus. Turns lay nothing.

* A bone's parent is the focus, or bone `0` when the focus was lost by popping back before the
  first move.
* A child is one deeper than its parent and one more branch order when it opens a branch. It
  inherits the parent's factors; a falloff then scales them by fixed ratios when the branch
  order grew.
* When the first move comes while a branch is open, a zero-length anchor is laid first at the
  start of the move, so that the branches that begin there share a root.

A pop with nothing remembered reports `Fault.stackUnderflow` and leaves the builder as it was.
`Builder.finish` groups the bones into branches.
-/

namespace Arbor

/-- Factors given to the root bone. -/
structure SkeletonConfig where
  rootLengthFactor : Float32 := 1
  rootThickness : Float32 := 1

/-- Ratios applied to length and thickness each time a branch opens. -/
structure Falloff where
  lengthRatio : Float32
  thicknessRatio : Float32

/-- A child's props after the falloff: scaled when its branch order exceeds the parent's. -/
def Falloff.apply (f : Falloff) (parent child : BoneProps) : BoneProps :=
  if parent.branchOrder < child.branchOrder then
    { child with
      lengthFactor := parent.lengthFactor * f.lengthRatio
      thickness := parent.thickness * f.thicknessRatio }
  else child

/-- A remembered focus. -/
structure SavedFocus where
  focus : Option Nat
  opensBranch : Bool

/-- A skeleton under construction. -/
structure Builder where
  config : SkeletonConfig := {}
  falloff : Option Falloff := none
  bones : Array Bone := #[]
  focus : Option Nat := none
  opensBranch : Bool := false
  stack : List SavedFocus := []

namespace Builder

/-- The parent of the next bone: the focus, else bone `0` if any bone exists. -/
def nextParent (b : Builder) : Option Nat :=
  match b.focus with
  | some f => some f
  | none => if b.bones.size = 0 then none else some 0

/-- The props of a child of `parent`. -/
def childProps (b : Builder) (parent : BoneProps) : BoneProps :=
  let props : BoneProps :=
    { parent with
      depth := parent.depth + 1
      branchOrder := parent.branchOrder + (if b.opensBranch then 1 else 0) }
  match b.falloff with
  | some f => f.apply parent props
  | none => props

/-- Lays a bone from `base` to `tip` under the next parent, and makes it the focus. -/
def addBone (b : Builder) (base tip : Vec3) (rotation : Quat) : Builder :=
  let parent := b.nextParent
  let rootProps : BoneProps := ⟨0, 0, b.config.rootLengthFactor, b.config.rootThickness⟩
  let props := match parent.bind fun p => b.bones[p]? with
    | some pb => b.childProps pb.props
    | none => rootProps
  let startsBranch := parent.isSome && b.opensBranch
  match b with
  | ⟨config, falloff, bones, _, _, stack⟩ =>
    let id := bones.size
    let bones := match parent with
      | some p => bones.modify p fun q => { q with children := q.children ++ [id] }
      | none => bones
    let bone : Bone := ⟨id, parent, [], base, tip, rotation, props, startsBranch⟩
    ⟨config, falloff, bones.push bone, some id, false, stack⟩

/-- Feeds one event: the builder after it, and the fault if it failed (the builder then
unchanged). -/
def observe (b : Builder) : Event → Builder × Option Fault
  | .move src dst rotation =>
    let b := if b.bones.size = 0 && b.opensBranch then
        { b.addBone src src rotation with opensBranch := true }
      else b
    (b.addBone src dst rotation, none)
  | .rotate _ _ => (b, none)
  | .push =>
    ({ b with stack := ⟨b.focus, b.opensBranch⟩ :: b.stack, opensBranch := true }, none)
  | .pop =>
    match b.stack with
    | [] => (b, some .stackUnderflow)
    | s :: rest => ({ b with focus := s.focus, opensBranch := s.opensBranch, stack := rest }, none)

/-- Feeds events in order, stopping at the first that fails. -/
def observeAll : Builder → List Event → Builder × Option Fault
  | b, [] => (b, none)
  | b, e :: es =>
    match b.observe e with
    | (b, none) => observeAll b es
    | stopped => stopped

/-- The finished skeleton: the bones and their branches. -/
def finish (b : Builder) : Skeleton := ⟨b.bones, Branch.classify b.bones⟩

end Builder

end Arbor
