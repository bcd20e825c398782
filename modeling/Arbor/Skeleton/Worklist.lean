import Arbor.Skeleton.Branch
/-!
# The branch walk, pass by pass

`Branch.classify` lists the branches of an arena by recursion over the tree. The walk here lists
them as a loop with an explicit stack does. It keeps the bones where branches are still to start,
the top of the stack first, and the branches listed so far. A pass of the outer loop pops a start
and opens a branch there; a pass of the inner loop reads the children of the current bone, and
either follows a lone child that opens no branch, or closes the branch and stacks the children of
its last bone, the first on top.

The walk reads bones by index and trusts the arena: a pass that reads an index outside the arena
stops the walk there (`Outcome.outOfRange`), and on an arena whose children do not come after
their parents the walk may go on forever. `Walk.run` makes a given number of passes.
-/

namespace Arbor

namespace Branch

/-- Where the walk stands: between branches (`scan`), or following a branch whose bones so far,
the current one last, are `nodes` (`chain`). `starts` is the stack, its top first, and `done` the
branches listed so far. -/
inductive Walk
  | scan (starts : List Nat) (done : List Branch)
  | chain (starts : List Nat) (done : List Branch) (nodes : List Nat) (cur : Nat)

namespace Walk

/-- What a pass leads to: the next state, the end of the walk with the branches it listed, or an
index outside the arena. -/
inductive Outcome
  | next (w : Walk)
  | halted (branches : List Branch)
  | outOfRange (index : Nat)

/-- Closes the branch `nodes` as one of kind `kind` and stacks the bones `next`, the first on
top. -/
def close (starts : List Nat) (done : List Branch) (nodes : List Nat) (kind : BranchKind)
    (next : List Nat) : Outcome :=
  .next (scan (next ++ starts) (done ++ [⟨nodes, kind⟩]))

/-- One pass of the outer loop (from `scan`) or of the inner loop (from `chain`). -/
def step (bones : Array Bone) : Walk → Outcome
  | scan [] done => .halted done
  | scan (s :: starts) done => .next (chain starts done [s] s)
  | chain starts done nodes cur =>
    match bones[cur]? with
    | none => .outOfRange cur
    | some b =>
      match b.children with
      | [] => close starts done nodes .leaf []
      | [c] =>
        match bones[c]? with
        | none => .outOfRange c
        | some child =>
          if child.startsBranch then close starts done nodes .branchPoint [c]
          else .next (chain starts done (nodes ++ [c]) c)
      | cs => close starts done nodes .branchPoint cs

/-- Makes up to `fuel` passes: the outcome of the pass that stops the walk, or the state reached
after them all. -/
def run (bones : Array Bone) : Nat → Walk → Outcome
  | 0, w => .next w
  | fuel + 1, w =>
    match w.step bones with
    | .next w' => run bones fuel w'
    | .halted branches => .halted branches
    | .outOfRange i => .outOfRange i

/-- The walk of an arena: nothing to do for an empty one, else bone `0` waiting. -/
def init (bones : Array Bone) : Walk := scan (if bones.size = 0 then [] else [0]) []

end Walk

end Branch

end Arbor
