import Arbor.Grammar.Rule
/-!
# Runs of equal symbols

`symbolRuns w` is the run-length encoding of a word: its maximal blocks of one repeated symbol,
each as the symbol and the length of the block, in order.
-/

namespace Arbor

/-- The runs of the rest `w`, the current run being `n` copies of `a` and `acc` holding the
finished runs, latest first. -/
def runsFrom (a : Symbol) (n : Nat) (acc : List (Symbol × Nat)) : Word → List (Symbol × Nat)
  | [] => ((a, n) :: acc).reverse
  | b :: w => if b = a then runsFrom a (n + 1) acc w else runsFrom b 1 ((a, n) :: acc) w

/-- The maximal runs of equal symbols of a word, with their lengths. -/
def symbolRuns : Word → List (Symbol × Nat)
  | [] => []
  | a :: w => runsFrom a 1 [] w

end Arbor
