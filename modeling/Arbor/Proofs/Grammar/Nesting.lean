import Arbor.Preset.Plane
import Arbor.Proofs.Grammar.Generations
import Arbor.Proofs.Interpret.Brackets
/-!
# Generations keep brackets balanced

Read `[` as opening a bracket and `]` as closing one. `Word.bracketDepth d w` is the number of
brackets open after reading `w` with `d` open before it, or `none` once a `]` finds none open; a
word is balanced when it takes that number from `0` back to `0` (`Word.Balanced`).

A grammar *keeps brackets* when `[` and `]` have no rule and every word a rule writes is
balanced, whatever the stream draws (`Grammar.KeepsBrackets`). A fixed rule writes its
replacement and a chance rule one of its choices or its fallback, so for these it is enough that
those words are balanced (`Rule.balanced_fixed`, `Rule.balanced_chance`).

Main statements: such a grammar rewrites every symbol to a word that moves the count as the symbol
does, so one generation moves it as the word it rewrites does, whatever the stream draws
(`KeepsBrackets.bracketDepth_step`); balanced words stay balanced over any number of generations
(`KeepsBrackets.balanced_iterate`), and a balanced start word expands to balanced words only
(`KeepsBrackets.balanced_expand`).
-/

namespace Arbor

namespace Word

/-- The brackets a symbol opens: one for `[`. -/
def opensBracket (a : Symbol) : Nat := if a = sym '[' then 1 else 0

/-- The brackets a symbol closes: one for `]`. -/
def closesBracket (a : Symbol) : Nat := if a = sym ']' then 1 else 0

/-- The brackets open after `w`, read with `d` open before it; `none` once a `]` finds none
open. -/
def bracketDepth (d : Nat) (w : Word) : Option Nat :=
  Brackets.reach opensBracket closesBracket d w

/-- Every `]` closes a bracket opened before it, and every `[` is closed. -/
def Balanced (w : Word) : Prop := bracketDepth 0 w = some 0

instance : DecidablePred Balanced := fun w =>
  inferInstanceAs (Decidable (bracketDepth 0 w = some 0))

theorem bracketDepth_append (d : Nat) (u v : Word) :
    bracketDepth d (u ++ v) = (bracketDepth d u).bind (bracketDepth · v) :=
  Brackets.reach_append _ _ d u v

theorem Balanced.bracketDepth {w : Word} (h : Balanced w) (d : Nat) :
    bracketDepth d w = some d := by
  simpa [Word.bracketDepth] using Brackets.reach_add h d

theorem bracketDepth_singleton_of_ne {a : Symbol} (ho : a ≠ sym '[') (hc : a ≠ sym ']')
    (d : Nat) : bracketDepth d [a] = some d := by
  simp [bracketDepth, Brackets.reach_singleton, opensBracket, closesBracket, ho, hc]

end Word

namespace Rule

theorem choose_mem (cs : List (Float32 × Word)) (w : Word) (u : Float32) :
    choose cs w u ∈ w :: cs.map Prod.snd := by
  unfold choose
  split
  · rename_i c hc
    exact List.mem_cons_of_mem _ (List.mem_map_of_mem (List.mem_of_find?_eq_some hc))
  · exact List.mem_cons_self

theorem apply_chance_mem (cs : List (Float32 × Word)) (w : Word) (r : Rng) :
    ((chance cs w).apply r).1 ∈ w :: cs.map Prod.snd :=
  choose_mem cs w _

theorem balanced_fixed {w : Word} (h : Word.Balanced w) (r : Rng) :
    Word.Balanced ((fixed w).apply r).1 := h

theorem balanced_chance {cs : List (Float32 × Word)} {w : Word}
    (h : ∀ v ∈ w :: cs.map Prod.snd, Word.Balanced v) (r : Rng) :
    Word.Balanced ((chance cs w).apply r).1 :=
  h _ (apply_chance_mem cs w r)

end Rule

namespace Grammar

/-- `[` and `]` are never rewritten, and every word a rule writes is balanced, whatever the
stream draws. -/
structure KeepsBrackets (g : Grammar) : Prop where
  open_fixed : g.rules (sym '[') = none
  close_fixed : g.rules (sym ']') = none
  balanced : ∀ a rule, g.rules a = some rule → ∀ r, Word.Balanced (rule.apply r).1

theorem keepsBrackets_start (start : Word) : ({ start } : Grammar).KeepsBrackets :=
  ⟨rfl, rfl, fun _ _ h => by cases h⟩

namespace KeepsBrackets

variable {g : Grammar} (hg : g.KeepsBrackets)
include hg

/-- Binding a rule that writes balanced words to a symbol other than a bracket keeps brackets. -/
theorem setRule {a : Symbol} (ho : a ≠ sym '[') (hc : a ≠ sym ']') {rule : Rule}
    (hrule : ∀ r, Word.Balanced (rule.apply r).1) : (g.setRule a rule).KeepsBrackets where
  open_fixed := by simp [Grammar.setRule, RuleTable.set, Ne.symm ho, hg.open_fixed]
  close_fixed := by simp [Grammar.setRule, RuleTable.set, Ne.symm hc, hg.close_fixed]
  balanced x rx h := by
    simp only [Grammar.setRule, RuleTable.set] at h
    split at h
    · cases h
      exact hrule
    · exact hg.balanced x rx h

theorem aliasRule {target : Symbol} (ho : target ≠ sym '[') (hc : target ≠ sym ']')
    (source : Symbol) : (g.aliasRule target source).KeepsBrackets where
  open_fixed := by simp [Grammar.aliasRule, RuleTable.copy, Ne.symm ho, hg.open_fixed]
  close_fixed := by simp [Grammar.aliasRule, RuleTable.copy, Ne.symm hc, hg.close_fixed]
  balanced x rx h := by
    simp only [Grammar.aliasRule, RuleTable.copy] at h
    split at h
    · exact hg.balanced source rx h
    · exact hg.balanced x rx h

theorem bracketDepth_rewrite (a : Symbol) (r : Rng) (d : Nat) :
    Word.bracketDepth d (g.rewrite a r).1 = Word.bracketDepth d [a] := by
  -- the brackets have no rule and stand for themselves
  by_cases ho : a = sym '['
  · simp [rewrite, ho, hg.open_fixed]
  by_cases hc : a = sym ']'
  · simp [rewrite, hc, hg.close_fixed]
  rw [Word.bracketDepth_singleton_of_ne ho hc]
  unfold rewrite
  cases h : g.rules a with
  | none => exact Word.bracketDepth_singleton_of_ne ho hc d
  | some rule => exact (hg.balanced a rule h r).bracketDepth d

/-- One generation moves the count as the word it rewrites does, whatever the stream draws. -/
theorem bracketDepth_step (w : Word) (r : Rng) (d : Nat) :
    Word.bracketDepth d (g.step w r).1 = Word.bracketDepth d w := by
  induction w generalizing r d with
  | nil => rfl
  | cons a w ih =>
    calc Word.bracketDepth d (g.step (a :: w) r).1
        = (Word.bracketDepth d [a]).bind
            (Word.bracketDepth · (g.step w (g.rewrite a r).2).1) := by
          rw [step_cons, Word.bracketDepth_append, hg.bracketDepth_rewrite]
      _ = (Word.bracketDepth d [a]).bind (Word.bracketDepth · w) := by simp only [ih]
      _ = Word.bracketDepth d (a :: w) := (Word.bracketDepth_append d [a] w).symm

theorem bracketDepth_iterate (n : Nat) (w : Word) (r : Rng) (d : Nat) :
    Word.bracketDepth d (g.iterate n w r).1 = Word.bracketDepth d w := by
  induction n generalizing w r with
  | zero => rfl
  | succ n ih => rw [iterate_succ, ih, hg.bracketDepth_step]

theorem balanced_step {w : Word} (hw : Word.Balanced w) (r : Rng) :
    Word.Balanced (g.step w r).1 :=
  (hg.bracketDepth_step w r 0).trans hw

theorem balanced_iterate {w : Word} (hw : Word.Balanced w) (n : Nat) (r : Rng) :
    Word.Balanced (g.iterate n w r).1 :=
  (hg.bracketDepth_iterate n w r 0).trans hw

/-- Without a limit, a balanced start word expands to a balanced word, whatever the stream. -/
theorem balanced_expand (hmax : g.maxLen = none) (hstart : Word.Balanced g.start) (n : Nat)
    (r : Rng) : ∃ w, (g.expand n r).1 = .ok w ∧ Word.Balanced w :=
  ⟨_, by rw [expand_of_maxLen_none hmax], hg.balanced_iterate hstart n r⟩

end KeepsBrackets

end Grammar

end Arbor
