import Arbor.Grammar.Rule
import Arbor.Fault
/-!
# Grammars

A grammar is a start word, a rule table and an optional limit on the length of the words it
grows. One generation rewrites a word in one pass from left to right, each symbol by its rule,
the stream threaded through the dynamic rules in the order they are met (`Grammar.step`).
`Grammar.iterate` runs `n` generations without a limit.

`projectedLength?` is the length of the next generation when no symbol of the word has a dynamic
rule: the sum of the replacement lengths, a symbol without a rule counting one, capped at the
largest 64-bit count.
-/

namespace Arbor

/-- The largest count of symbols a length may report. -/
def countCap : Nat := Nat.pow 2 64 - 1

/-- A grammar: start word, rules and an optional length limit. -/
structure Grammar where
  start : Word
  rules : RuleTable := RuleTable.empty
  maxLen : Option Nat := none

namespace Grammar

/-- Binds a rule to a symbol. -/
def setRule (g : Grammar) (s : Symbol) (r : Rule) : Grammar := { g with rules := g.rules.set s r }

/-- Copies the rule of `source` onto `target`. -/
def aliasRule (g : Grammar) (target source : Symbol) : Grammar :=
  { g with rules := g.rules.copy target source }

/-- Sets the length limit. -/
def withMaxLen (g : Grammar) (limit : Nat) : Grammar := { g with maxLen := some limit }

/-- Rewrites one occurrence of `a`: by its rule, or to itself. -/
def rewrite (g : Grammar) (a : Symbol) (r : Rng) : Word × Rng :=
  match g.rules a with
  | some rule => rule.apply r
  | none => ([a], r)

/-- The length `a` rewrites to, if known without running a rule. -/
def symbolLength? (g : Grammar) (a : Symbol) : Option Nat :=
  match g.rules a with
  | some rule => rule.fixedLength?
  | none => some 1

/-- The length of the next generation of `w`, capped at `countCap`, or `none` when some symbol
of `w` has a dynamic rule. -/
def projectedLength? (g : Grammar) (w : Word) : Option Nat :=
  w.foldlM (fun acc a => (g.symbolLength? a).map fun n => min countCap (acc + n)) 0

/-- Rewrites the rest `w` of a word, `acc` holding what was written so far, reversed. -/
def stepFrom (g : Grammar) (acc : List Symbol) : Word → Rng → Word × Rng
  | [], r => (acc.reverse, r)
  | a :: w, r =>
    let (rep, r) := g.rewrite a r
    g.stepFrom (rep.reverseAux acc) w r

/-- One generation: each symbol rewritten in turn, left to right. -/
def step (g : Grammar) (w : Word) (r : Rng) : Word × Rng := g.stepFrom [] w r

/-- `n` generations without a limit. -/
def iterate (g : Grammar) : Nat → Word → Rng → Word × Rng
  | 0, w, r => (w, r)
  | n + 1, w, r => let (w, r) := g.step w r; g.iterate n w r

end Grammar

end Arbor
