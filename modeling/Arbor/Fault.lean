/-!
# Faults

The two ways a run of this library can fail: a turtle is asked to restore a state that was never
saved, or a grammar with a length limit would grow a word past it. `Fault.message` is the text
of each.
-/

namespace Arbor

/-- Why a run failed. -/
inductive Fault
  /-- A pop with no saved state: the word has more closing than opening brackets. -/
  | stackUnderflow
  /-- Generation `generation` would hold `len` symbols, more than the limit. -/
  | sequenceTooLarge (generation len limit : Nat)
deriving BEq, Repr

/-- The text of a fault. -/
def Fault.message : Fault → String
  | .stackUnderflow => "pop on empty turtle stack (unbalanced brackets)"
  | .sequenceTooLarge g len limit =>
    "generation " ++ toString g ++ " would reach " ++ toString len ++ " symbols, limit is " ++
      toString limit

end Arbor
