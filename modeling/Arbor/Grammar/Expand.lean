import Arbor.Grammar.Basic
/-!
# Expansion under a length limit

`Grammar.expand n` rewrites the start word `n` times. Without a limit it is `Grammar.iterate`.
With a limit `L`, generation `g = 1, 2, …` is refused:

* before it starts, when the length of its result is known without drawing and exceeds `L`;
  the fault reports that length;
* while it is written, as soon as the symbols written so far exceed `L`; the fault reports how
  many were written, and the stream has advanced through the dynamic rules met until then.

The start word itself is never checked. The stream is returned in both outcomes.
-/

namespace Arbor

namespace Grammar

/-- Rewrites the rest `w` of a word of generation `gen` under the limit, `acc` holding the `n`
symbols written so far, reversed. -/
def stepLimited (g : Grammar) (gen limit : Nat) (acc : List Symbol) (n : Nat) :
    Word → Rng → Except Fault Word × Rng
  | [], r => (.ok acc.reverse, r)
  | a :: w, r =>
    let (rep, r) := g.rewrite a r
    let n := n + rep.length
    if limit < n then (.error (.sequenceTooLarge gen n limit), r)
    else g.stepLimited gen limit (rep.reverseAux acc) n w r

/-- Generations `gen`, `gen + 1`, … of `w`, `left` of them, under the limit. -/
def expandLimited (g : Grammar) (limit : Nat) (gen : Nat) :
    (left : Nat) → Word → Rng → Except Fault Word × Rng
  | 0, w, r => (.ok w, r)
  | left + 1, w, r =>
    let projected := g.projectedLength? w
    match projected with
    | some len =>
      if limit < len then (.error (.sequenceTooLarge gen len limit), r)
      else
        match g.stepLimited gen limit [] 0 w r with
        | (.ok w, r) => g.expandLimited limit (gen + 1) left w r
        | (.error e, r) => (.error e, r)
    | none =>
      match g.stepLimited gen limit [] 0 w r with
      | (.ok w, r) => g.expandLimited limit (gen + 1) left w r
      | (.error e, r) => (.error e, r)

/-- The start word rewritten `n` times, with the stream after the rewriting. -/
def expand (g : Grammar) (n : Nat) (r : Rng) : Except Fault Word × Rng :=
  match g.maxLen with
  | none => let (w, r) := g.iterate n g.start r; (.ok w, r)
  | some limit => g.expandLimited limit 1 n g.start r

end Grammar

end Arbor
