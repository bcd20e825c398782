import Mathlib.Algebra.BigOperators.Group.Finset.Basic
import Mathlib.Logic.Function.Iterate
import Arbor.Grammar.Expand
import Arbor.Proofs.Grammar.Step
/-!
# Generations without a limit

Read as a program in the state monad of the stream, one generation is one pass over the word
(`Grammar.pass`): each occurrence is replaced by its fixed replacement, by what its dynamic rule
writes when run on the stream as threaded so far, or by itself when it has no rule.
`Grammar.nextGeneration` runs that pass on a word and a stream.

Main statements: without a limit, expanding `n` times is `n` passes from the start word
(`expand_eq_iterate_nextGeneration`); so `m + n` generations are `n` generations of the grammar
started from the word of `m` (`iterate_add`); a generation where nothing draws leaves the stream
alone and gives one word for every stream (`iterate_of_not_draws`); and where every dynamic rule
takes one word of the stream, as a chance rule does (`Grammar.DrawsOnce`), each occurrence of a
dynamic rule draws exactly one word (`iterate_drawn`). `expand_unlimited` puts it together.
-/

namespace Arbor

namespace Grammar

variable (g : Grammar)

/-- What one occurrence of `a` is rewritten to, drawing from the stream as threaded so far. -/
def occurrence (a : Symbol) : StateM Rng Word :=
  match g.rules a with
  | some (.fixed w) => pure w
  | some (.dynamic generate) => modifyGet generate
  | none => pure [a]

/-- One generation: every occurrence rewritten in turn, left to right. -/
def pass (w : Word) : StateM Rng Word := w.flatMapM g.occurrence

/-- One generation of a word, rewritten from a stream: the next word and the stream after it. -/
def nextGeneration (s : Word × Rng) : Word × Rng := (g.pass s.1).run s.2

theorem occurrence_run (a : Symbol) (r : Rng) : (g.occurrence a).run r = g.rewrite a r := by
  unfold occurrence rewrite
  cases g.rules a with
  | none => rfl
  | some rule => cases rule <;> rfl

/-- The loop that writes a generation symbol by symbol is the pass over the word. -/
theorem step_eq_pass (w : Word) (r : Rng) : g.step w r = (g.pass w).run r := by
  induction w generalizing r with
  | nil => rfl
  | cons a w ih =>
    rw [step_cons, ih]
    simp only [pass, List.flatMapM_cons, StateT.run_bind, ← occurrence_run]
    rfl

theorem iterate_succ (n : Nat) (w : Word) (r : Rng) :
    g.iterate (n + 1) w r = g.iterate n (g.step w r).1 (g.step w r).2 := rfl

theorem iterate_eq_iterate_nextGeneration (n : Nat) (w : Word) (r : Rng) :
    g.iterate n w r = g.nextGeneration^[n] (w, r) := by
  induction n generalizing w r with
  | zero => rfl
  | succ n ih =>
    rw [Function.iterate_succ_apply, iterate_succ, ih, step_eq_pass]
    rfl

theorem iterate_congr {g g' : Grammar} (h : g.rules = g'.rules) : g.iterate = g'.iterate := by
  have hnext : g.nextGeneration = g'.nextGeneration := by
    unfold nextGeneration pass occurrence
    rw [h]
  funext n w r
  rw [iterate_eq_iterate_nextGeneration, iterate_eq_iterate_nextGeneration, hnext]

theorem iterate_add (m n : Nat) (w : Word) (r : Rng) :
    g.iterate (m + n) w r = g.iterate n (g.iterate m w r).1 (g.iterate m w r).2 := by
  simp only [iterate_eq_iterate_nextGeneration, Nat.add_comm m n, Function.iterate_add_apply]

section Unlimited

variable {g} (hg : g.maxLen = none)
include hg

theorem expand_of_maxLen_none (n : Nat) (r : Rng) :
    g.expand n r = (.ok (g.iterate n g.start r).1, (g.iterate n g.start r).2) := by
  unfold expand
  rw [hg]

theorem expand_eq_iterate_nextGeneration (n : Nat) (r : Rng) :
    g.expand n r =
      (.ok (g.nextGeneration^[n] (g.start, r)).1, (g.nextGeneration^[n] (g.start, r)).2) := by
  rw [expand_of_maxLen_none hg, iterate_eq_iterate_nextGeneration]

end Unlimited

/-! ## Generations that draw nothing -/

theorem exists_rewrite_of_draws_eq_false {a : Symbol} (h : g.draws a = false) :
    ∃ rep, ∀ r, g.rewrite a r = (rep, r) := by
  unfold rewrite
  unfold draws at h
  cases hr : g.rules a with
  | none => exact ⟨[a], fun _ => rfl⟩
  | some rule =>
    cases rule with
    | fixed w => exact ⟨w, fun _ => rfl⟩
    | dynamic gen => simp [hr] at h

theorem step_of_not_any_draws {w : Word} (h : w.any g.draws = false) (r r' : Rng) :
    g.step w r = ((g.step w r').1, r) := by
  induction w generalizing r r' with
  | nil => rfl
  | cons a w ih =>
    simp only [List.any_cons, Bool.or_eq_false_iff] at h
    obtain ⟨rep, hrep⟩ := g.exists_rewrite_of_draws_eq_false h.1
    simp only [step_cons, hrep, ih h.2 r r']

/-- When nothing met in `n` generations from the stream `r` draws, the `n` generations give the
same word from every stream, and leave it untouched. -/
theorem iterate_of_not_draws {n : Nat} {w : Word} {r : Rng}
    (h : ∀ k < n, (g.iterate k w r).1.any g.draws = false) (r' : Rng) :
    g.iterate n w r' = ((g.iterate n w r).1, r') := by
  induction n generalizing w r r' with
  | zero => rfl
  | succ n ih =>
    obtain ⟨w₁, hr, hr'⟩ : ∃ w₁, g.step w r = (w₁, r) ∧ g.step w r' = (w₁, r') :=
      ⟨_, g.step_of_not_any_draws (h 0 (Nat.zero_lt_succ n)) r r,
        g.step_of_not_any_draws (h 0 (Nat.zero_lt_succ n)) r' r⟩
    have hrest : ∀ k < n, (g.iterate k w₁ r).1.any g.draws = false := by
      intro k hk
      have := h (k + 1) (by omega)
      rwa [iterate_succ, hr] at this
    rw [iterate_succ, iterate_succ, hr, hr']
    exact ih hrest r'

/-! ## Counting draws -/

/-- Every dynamic rule of the grammar takes exactly one word of the stream, as a chance rule
does. -/
def DrawsOnce : Prop := ∀ a gen, g.rules a = some (.dynamic gen) → ∀ r, (gen r).2 = r.nextWord.2

variable {g}

theorem rewrite_snd (hd : g.DrawsOnce) (a : Symbol) (r : Rng) :
    (g.rewrite a r).2 = { r with drawn := r.drawn + if g.draws a then 1 else 0 } := by
  unfold rewrite draws
  cases hr : g.rules a with
  | none => rfl
  | some rule =>
    cases rule with
    | fixed w => rfl
    | dynamic gen => exact hd a gen hr r

theorem step_drawn (hd : g.DrawsOnce) (w : Word) (r : Rng) :
    (g.step w r).2 = { r with drawn := r.drawn + w.countP g.draws } := by
  induction w generalizing r with
  | nil => rfl
  | cons a w ih =>
    rw [step_cons, ih, rewrite_snd hd, List.countP_cons]
    simp only [Nat.add_assoc, Nat.add_comm (if g.draws a = true then 1 else 0)]

theorem iterate_drawn (hd : g.DrawsOnce) (n : Nat) (w : Word) (r : Rng) :
    (g.iterate n w r).2 =
      { r with drawn := r.drawn +
        ∑ k ∈ Finset.range n, (g.iterate k w r).1.countP g.draws } := by
  induction n generalizing w r with
  | zero => rfl
  | succ n ih =>
    rw [Finset.sum_range_succ']
    simp only [iterate_succ, ih]
    rw [step_drawn hd]
    congr 1
    simp only [iterate]
    omega

/-! ## Expanding without a limit -/

/-- How `expand` answers when the grammar sets no limit. -/
structure Unlimited (g : Grammar) : Prop where
  /-- `n` generations are `n` passes from the start word, the stream threaded through them. -/
  expand_eq : ∀ n r, g.expand n r =
    (.ok (g.nextGeneration^[n] (g.start, r)).1, (g.nextGeneration^[n] (g.start, r)).2)
  /-- `m + n` generations are `n` generations of the grammar started from the word of `m`, the
  stream going on from where `m` left it. -/
  expand_add : ∀ m n r w r', g.expand m r = (.ok w, r') →
    g.expand (m + n) r = ({ g with start := w } : Grammar).expand n r'
  /-- When nothing met in the first `n` generations from `r` draws, expanding `n` times from any
  stream gives the same word and leaves that stream untouched. -/
  expand_of_not_draws : ∀ n r,
    (∀ k < n, (g.nextGeneration^[k] (g.start, r)).1.any g.draws = false) →
    ∀ r', g.expand n r' = (.ok (g.nextGeneration^[n] (g.start, r)).1, r')
  /-- Where every dynamic rule takes one word of the stream, expanding draws one word for each
  occurrence of a dynamic rule in generations `0` to `n - 1`, and stays on the same seed. -/
  expand_drawn : g.DrawsOnce → ∀ n r, (g.expand n r).2 =
    { r with drawn := r.drawn + ∑ k ∈ Finset.range n,
      (g.nextGeneration^[k] (g.start, r)).1.countP g.draws }

/-- Without a limit, expanding runs the generations one pass after another, threading the stream
through the dynamic rules in the order they are met, each run once per occurrence. -/
theorem expand_unlimited (g : Grammar) (hg : g.maxLen = none) : g.Unlimited where
  expand_eq := expand_eq_iterate_nextGeneration hg
  expand_add m n r w r' h := by
    have hm : g.iterate m g.start r = (w, r') := by
      rw [expand_of_maxLen_none hg, Prod.mk.injEq, Except.ok.injEq] at h
      exact Prod.ext h.1 h.2
    -- the grammar started from `w` has the same rules, so the same generations
    have hrules : ({ g with start := w } : Grammar).iterate = g.iterate := iterate_congr rfl
    rw [expand_of_maxLen_none hg, expand_of_maxLen_none (g := { g with start := w }) hg,
      hrules, iterate_add, hm]
  expand_of_not_draws n r h r' := by
    simp only [← iterate_eq_iterate_nextGeneration] at h ⊢
    rw [expand_of_maxLen_none hg, g.iterate_of_not_draws h r']
  expand_drawn hd n r := by
    rw [expand_of_maxLen_none hg, iterate_drawn hd]
    simp only [iterate_eq_iterate_nextGeneration]

/-- The grammar `X → XX`, drawn at every occurrence, expanded from `XXX`. -/
theorem expand_unlimited_doubling :
    ({ start := [88, 88, 88], rules := RuleTable.empty.set 88 (.chance [] [88, 88]) } :
      Grammar).maxLen = none ∧
    ({ start := [88, 88, 88], rules := RuleTable.empty.set 88 (.chance [] [88, 88]) } :
      Grammar).Unlimited :=
  ⟨rfl, expand_unlimited _ rfl⟩

-- the rule of `X` is a chance rule, which takes one word of the stream
example : ({ start := [88, 88, 88], rules := RuleTable.empty.set 88 (.chance [] [88, 88]) } :
    Grammar).DrawsOnce := by
  intro a gen h r
  simp only [RuleTable.set, RuleTable.empty] at h
  split_ifs at h
  cases h
  rfl

-- three occurrences in the first generation and six in the second
example : (({ start := [88, 88, 88], rules := RuleTable.empty.set 88 (.chance [] [88, 88]) } :
    Grammar).expand 2 (Rng.ofSeed 0)).2.drawn = 9 := by decide

end Grammar

end Arbor
