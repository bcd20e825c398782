import Arbor.Random.Stream
/-!
# Production rules

A grammar rewrites words over a byte alphabet. Each symbol has at most one rule: a fixed
replacement, or a dynamic rule, a generator run on the random stream once for each occurrence it
rewrites, every generation anew. A symbol without a rule stands for itself.

A chance rule (`Rule.chance`) is the dynamic rule the presets use: one uniform number `u` per
occurrence, and the first choice whose threshold exceeds `u`, or the fallback when none does (a
NaN threshold never does).
-/

namespace Arbor

/-- One letter of the alphabet. -/
abbrev Symbol := UInt8

/-- A word over the alphabet. -/
abbrev Word := List Symbol

/-- How one symbol is rewritten. -/
inductive Rule
  /-- Always the same replacement. -/
  | fixed (replacement : Word)
  /-- Run on the stream for each occurrence: never remembered, so two occurrences may be
  rewritten differently. -/
  | dynamic (generate : Rng → Word × Rng)

namespace Rule

/-- The length of the replacement when it is known without running anything. -/
def fixedLength? : Rule → Option Nat
  | .fixed w => some w.length
  | .dynamic _ => none

/-- The choice made for the draw `u`. -/
def choose (choices : List (Float32 × Word)) (otherwise : Word) (u : Float32) : Word :=
  match choices.find? (fun c => u < c.1) with
  | some c => c.2
  | none => otherwise

/-- One draw `u` per occurrence: the first choice with `u < threshold`, else `otherwise`. -/
def chance (choices : List (Float32 × Word)) (otherwise : Word) : Rule :=
  .dynamic fun r => let (u, r) := r.uniform; (choose choices otherwise u, r)

/-- Rewrites one occurrence, running a dynamic rule on the stream. -/
def apply : Rule → Rng → Word × Rng
  | .fixed w, r => (w, r)
  | .dynamic generate, r => generate r

end Rule

/-- The rules of a grammar: at most one per symbol. -/
abbrev RuleTable := Symbol → Option Rule

namespace RuleTable

/-- No symbol has a rule. -/
def empty : RuleTable := fun _ => none

/-- Binds `r` to `s`, replacing any rule `s` had. -/
def set (t : RuleTable) (s : Symbol) (r : Rule) : RuleTable :=
  fun x => if x = s then some r else t x

/-- Gives `target` the rule that `source` has now, or no rule when `source` has none. -/
def copy (t : RuleTable) (target source : Symbol) : RuleTable :=
  fun x => if x = target then t source else t x

end RuleTable

end Arbor
