import Arbor.Skeleton.Bone
/-!
# Branches

The bones of a tree fall into branches: maximal chains in which each bone is the only child of
the one before and does not start a branch of its own. A branch ends in a leaf (a bone without
children) or at a branch point (a bone with two or more children, or with one child that starts
a branch); each child of a branch point starts a branch.

`classify` lists the branches in depth-first order: the branch of the root, then, for each child
of its last bone in turn, the branches below that child. It relies on what every tree built here
satisfies, a child's index exceeding its parent's; a child that breaks this is not followed, so
the walk always ends.
-/

namespace Arbor

/-- How a branch ends. -/
inductive BranchKind
  | leaf
  | branchPoint
deriving BEq, DecidableEq, Repr

/-- A maximal chain of bones, by index. -/
structure Branch where
  nodes : List Nat
  kind : BranchKind

namespace Branch

/-- The first bone. -/
def first? (b : Branch) : Option Nat := b.nodes.head?

/-- The last bone. -/
def last? (b : Branch) : Option Nat := b.nodes.getLast?

/-- The chain from `cur` (after the bones `acc`, reversed): its bones, how it ends, and the
children that start the next branches. -/
def chainFrom (bones : Array Bone) (acc : List Nat) (cur : Nat) :
    List Nat × BranchKind × List Nat :=
  match bones[cur]? with
  | none => ((cur :: acc).reverse, .leaf, [])
  | some b =>
    match b.children with
    | [] => ((cur :: acc).reverse, .leaf, [])
    | [c] =>
      if h : cur < c ∧ c < bones.size then
        have hc : c < bones.size := h.2
        if bones[c].startsBranch then ((cur :: acc).reverse, .branchPoint, [c])
        else chainFrom bones (cur :: acc) c
      else ((cur :: acc).reverse, .branchPoint, [c])
    | cs => ((cur :: acc).reverse, .branchPoint, cs)
termination_by bones.size - cur
decreasing_by omega

/-- The branches of the subtree below `start`, in depth-first order. -/
def branchesFrom (bones : Array Bone) (start : Nat) : List Branch :=
  let (nodes, kind, next) := chainFrom bones [] start
  ⟨nodes, kind⟩ :: next.flatMap fun c =>
    if start < c ∧ c < bones.size then branchesFrom bones c else []
termination_by bones.size - start
decreasing_by omega

/-- The branches of a tree rooted at bone `0`, in depth-first order. -/
def classify (bones : Array Bone) : List Branch :=
  if bones.size = 0 then [] else branchesFrom bones 0

end Branch

end Arbor
