import Mathlib.Data.Nat.Find
import Arbor.Grammar.Expand
import Arbor.Proofs.Grammar.Step
/-!
# Expansion under a length limit

Against the generations `s₀ = start, s₁, s₂, …` that a grammar grows from a stream without a
limit (`Grammar.unlimited`), expanding under a limit `L` returns the same word and stream as long
as no generation exceeds `L`. The first generation `g` that does is refused with its number:
before it starts, with its length capped at `countCap`, when nothing in `s_{g-1}` draws;
otherwise while it is written, at the shortest prefix of `s_{g-1}` whose rewrite exceeds `L`,
the stream having advanced through that prefix only.

Main statements: the guard that runs while a generation is written stops at the shortest prefix
over the limit (`stepLimited_of_lt`); generations within the limit pass both guards
(`expandLimited_iterate`); and `expand_guarded` puts it together.
-/

namespace Arbor

namespace Grammar

variable (g : Grammar)

/-- Generation `k` of the start word, and the stream after it, without a limit. -/
def unlimited (k : Nat) (r : Rng) : Word × Rng := g.iterate k g.start r

theorem iterate_succ_eq (k : Nat) (w : Word) (r : Rng) :
    g.iterate (k + 1) w r = g.step (g.iterate k w r).1 (g.iterate k w r).2 := by
  induction k generalizing w r with
  | zero => rfl
  | succ k ih => exact ih _ _

theorem unlimited_succ (k : Nat) (r : Rng) :
    g.unlimited (k + 1) r = g.step (g.unlimited k r).1 (g.unlimited k r).2 :=
  g.iterate_succ_eq k g.start r

/-! ## The guard while a generation is written -/

variable {g} {L : Nat}

theorem stepLimited_of_le (gen : Nat) (acc : List Symbol) {n : Nat} {w : Word} {r : Rng}
    (h : n + (g.step w r).1.length ≤ L) :
    g.stepLimited gen L acc n w r = (.ok (acc.reverse ++ (g.step w r).1), (g.step w r).2) := by
  induction w generalizing acc n r with
  | nil => simp [stepLimited]
  | cons a w ih =>
    rcases hr : g.rewrite a r with ⟨rep, r'⟩
    rw [step_cons, hr] at h ⊢
    simp only [List.length_append] at h
    simp only [stepLimited, hr]
    rw [if_neg (by omega), ih _ (by omega)]
    simp [List.reverseAux_eq]

/-- A generation whose rewrite exceeds the limit is stopped at the shortest prefix whose rewrite
does, with the stream where that prefix left it. -/
theorem stepLimited_of_lt (gen : Nat) (acc : List Symbol) {n : Nat} {w : Word} {r : Rng}
    (hn : n ≤ L) (h : L < n + (g.step w r).1.length) :
    ∃ i, L < n + (g.step (w.take i) r).1.length ∧
      (∀ j < i, n + (g.step (w.take j) r).1.length ≤ L) ∧
      g.stepLimited gen L acc n w r =
        (.error (.sequenceTooLarge gen (n + (g.step (w.take i) r).1.length) L),
          (g.step (w.take i) r).2) := by
  induction w generalizing acc n r with
  | nil => simp at h; omega
  | cons a w ih =>
    rcases hr : g.rewrite a r with ⟨rep, r'⟩
    have hstep (v : Word) : g.step (a :: v) r = (rep ++ (g.step v r').1, (g.step v r').2) := by
      rw [step_cons, hr]
    by_cases hlt : L < n + rep.length
    · -- the first symbol already overflows
      refine ⟨1, by simpa [hstep] using hlt, fun j hj => ?_, ?_⟩
      · obtain rfl : j = 0 := by omega
        simpa using hn
      · simp [stepLimited, hr, hlt, hstep]
    · -- the first symbol fits, so the overflow lies in the rest, one symbol further on
      rw [hstep, List.length_append] at h
      have h' : L < n + rep.length + (g.step w r').1.length := by omega
      obtain ⟨i, hover, hbelow, heq⟩ := ih (rep.reverseAux acc) (by omega) h'
      refine ⟨i + 1, ?_, fun j hj => ?_, ?_⟩
      · simp only [List.take_succ_cons, hstep, List.length_append]
        omega
      · cases j with
        | zero => simpa using hn
        | succ j =>
          have := hbelow j (by omega)
          simp only [List.take_succ_cons, hstep, List.length_append]
          omega
      · simp only [stepLimited, hr, if_neg hlt, heq, List.take_succ_cons, hstep,
          List.length_append, Nat.add_assoc]

/-! ## Generation by generation -/

theorem expandLimited_succ_of_le {gen left : Nat} {w : Word} {r : Rng}
    (h : (g.step w r).1.length ≤ L) :
    g.expandLimited L gen (left + 1) w r =
      g.expandLimited L (gen + 1) left (g.step w r).1 (g.step w r).2 := by
  have hok : g.stepLimited gen L [] 0 w r = (.ok (g.step w r).1, (g.step w r).2) := by
    simpa using stepLimited_of_le gen [] (by omega : 0 + (g.step w r).1.length ≤ L)
  cases hd : w.any g.draws
  · have hcap : ¬ L < min countCap (g.step w r).1.length := by omega
    simp [expandLimited, g.projectedLength?_of_not_any_draws hd r, hcap, hok]
  · simp [expandLimited, g.projectedLength?_of_any_draws hd, hok]

theorem expandLimited_iterate (gen m left : Nat) {w : Word} {r : Rng}
    (h : ∀ j, 1 ≤ j → j ≤ m → (g.iterate j w r).1.length ≤ L) :
    g.expandLimited L gen (m + left) w r =
      g.expandLimited L (gen + m) left (g.iterate m w r).1 (g.iterate m w r).2 := by
  induction m generalizing gen w r with
  | zero => rw [Nat.zero_add, Nat.add_zero]; rfl
  | succ m ih =>
    have h1 : (g.step w r).1.length ≤ L := h 1 (Nat.le_refl _) (by omega)
    have hrest :
        ∀ j, 1 ≤ j → j ≤ m → (g.iterate j (g.step w r).1 (g.step w r).2).1.length ≤ L :=
      fun j hj hjm => h (j + 1) (by omega) (by omega)
    rw [Nat.add_right_comm, expandLimited_succ_of_le h1, ih (gen + 1) hrest, Nat.add_assoc,
      Nat.add_comm 1 m]
    rfl

theorem expandLimited_succ_of_projected_lt {gen left : Nat} {w : Word} {r : Rng}
    (hcap : L < countCap) (h : L < (g.step w r).1.length) (hd : w.any g.draws = false) :
    g.expandLimited L gen (left + 1) w r =
      (.error (.sequenceTooLarge gen (min countCap (g.step w r).1.length) L), r) := by
  have hlt : L < min countCap (g.step w r).1.length := by omega
  simp [expandLimited, g.projectedLength?_of_not_any_draws hd r, hlt]

theorem expandLimited_succ_of_written_lt (gen left : Nat) {w : Word} {r : Rng}
    (h : L < (g.step w r).1.length) (hd : w.any g.draws = true) :
    ∃ i, L < (g.step (w.take i) r).1.length ∧
      (∀ j < i, (g.step (w.take j) r).1.length ≤ L) ∧
      g.expandLimited L gen (left + 1) w r =
        (.error (.sequenceTooLarge gen (g.step (w.take i) r).1.length L),
          (g.step (w.take i) r).2) := by
  obtain ⟨i, hover, hbelow, heq⟩ :=
    stepLimited_of_lt gen [] (Nat.zero_le L) (by omega : L < 0 + (g.step w r).1.length)
  refine ⟨i, by simpa using hover, fun j hj => by simpa using hbelow j hj, ?_⟩
  simp only [Nat.zero_add] at heq
  simp [expandLimited, g.projectedLength?_of_any_draws hd, heq]


/-- A generation over the limit fails, whatever the limit: a limit of `countCap` or more lets it
start, and the guard while it is written stops it. -/
theorem expandLimited_succ_of_lt {gen left : Nat} {w : Word} {r : Rng}
    (h : L < (g.step w r).1.length) :
    ∃ e r', g.expandLimited L gen (left + 1) w r = (.error e, r') := by
  cases hd : w.any g.draws
  · have hproj := g.projectedLength?_of_not_any_draws hd r
    by_cases hlt : L < min countCap (g.step w r).1.length
    · simp only [expandLimited, hproj, if_pos hlt]
      exact ⟨_, _, rfl⟩
    · obtain ⟨i, -, -, heq⟩ :=
        stepLimited_of_lt gen [] (Nat.zero_le L) (by omega : L < 0 + (g.step w r).1.length)
      simp only [expandLimited, hproj, if_neg hlt, heq]
      exact ⟨_, _, rfl⟩
  · obtain ⟨i, -, -, heq⟩ := expandLimited_succ_of_written_lt gen left h hd
    exact ⟨_, _, heq⟩

/-! ## The length guard -/

/-- How `expand n r` answers under the limit `L`, read against the generations the grammar grows
from `r` without a limit. -/
structure Guarded (g : Grammar) (L n : Nat) (r : Rng) : Prop where
  /-- No generation exceeds the limit: the last one, with the stream where it leaves it. -/
  ok : (∀ k, 1 ≤ k → k ≤ n → (g.unlimited k r).1.length ≤ L) →
    g.expand n r = (.ok (g.unlimited n r).1, (g.unlimited n r).2)
  /-- Under a limit below `countCap`, when generation `m + 1` is the first over the limit and
  nothing draws in generation `m`, it is refused before it starts, with its length capped at
  `countCap`, and draws nothing. -/
  refused : L < countCap → ∀ m < n, L < (g.unlimited (m + 1) r).1.length →
    (∀ j, 1 ≤ j → j ≤ m → (g.unlimited j r).1.length ≤ L) →
    (g.unlimited m r).1.any g.draws = false →
    g.expand n r =
      (.error (.sequenceTooLarge (m + 1) (min countCap (g.unlimited (m + 1) r).1.length) L),
        (g.unlimited m r).2)
  /-- Generation `m + 1` is the first over the limit and something draws in generation `m`: it is
  stopped at the shortest prefix of generation `m` whose rewrite exceeds the limit, with the
  length of that rewrite and the stream where it leaves it. -/
  stopped : ∀ m < n, L < (g.unlimited (m + 1) r).1.length →
    (∀ j, 1 ≤ j → j ≤ m → (g.unlimited j r).1.length ≤ L) →
    (g.unlimited m r).1.any g.draws = true →
    ∃ i, L < (g.step ((g.unlimited m r).1.take i) (g.unlimited m r).2).1.length ∧
      (g.step ((g.unlimited m r).1.take i) (g.unlimited m r).2).1.length ≤
        (g.unlimited (m + 1) r).1.length ∧
      (∀ j < i, (g.step ((g.unlimited m r).1.take j) (g.unlimited m r).2).1.length ≤ L) ∧
      g.expand n r =
        (.error (.sequenceTooLarge (m + 1)
          (g.step ((g.unlimited m r).1.take i) (g.unlimited m r).2).1.length L),
          (g.step ((g.unlimited m r).1.take i) (g.unlimited m r).2).2)
  /-- The start word is never checked. -/
  start : g.expand 0 r = (.ok g.start, r)
  /-- A word expanded at least once is within the limit. -/
  length_le : ∀ w r', 0 < n → g.expand n r = (.ok w, r') → w.length ≤ L

section Limit

variable {L : Nat} (hL : g.maxLen = some L)
include hL

theorem expand_eq_expandLimited (n : Nat) (r : Rng) :
    g.expand n r = g.expandLimited L 1 n g.start r := by
  simp [expand, hL]

theorem expand_of_forall_le {n : Nat} {r : Rng}
    (h : ∀ k, 1 ≤ k → k ≤ n → (g.unlimited k r).1.length ≤ L) :
    g.expand n r = (.ok (g.unlimited n r).1, (g.unlimited n r).2) := by
  have := expandLimited_iterate (g := g) 1 n 0 h
  rw [Nat.add_zero] at this
  rw [expand_eq_expandLimited hL, this]
  rfl

theorem expand_eq_of_first_over {m n : Nat} {r : Rng} (hmn : m < n)
    (hbelow : ∀ j, 1 ≤ j → j ≤ m → (g.unlimited j r).1.length ≤ L) :
    ∃ left, g.expand n r =
      g.expandLimited L (m + 1) (left + 1) (g.unlimited m r).1 (g.unlimited m r).2 := by
  obtain ⟨left, rfl⟩ : ∃ left, n = m + (left + 1) := ⟨n - m - 1, by omega⟩
  refine ⟨left, ?_⟩
  rw [expand_eq_expandLimited hL, expandLimited_iterate 1 m (left + 1) hbelow, Nat.add_comm 1 m]
  rfl

theorem expand_error_of_first_over {m n : Nat} {r : Rng} (hmn : m < n)
    (hover : L < (g.unlimited (m + 1) r).1.length)
    (hbelow : ∀ j, 1 ≤ j → j ≤ m → (g.unlimited j r).1.length ≤ L) :
    ∃ e r', g.expand n r = (.error e, r') := by
  obtain ⟨left, he⟩ := expand_eq_of_first_over hL hmn hbelow
  rw [unlimited_succ] at hover
  rw [he]
  exact expandLimited_succ_of_lt hover

theorem length_le_of_expand {n : Nat} {r : Rng} {w : Word} {r' : Rng}
    (hn : 0 < n) (h : g.expand n r = (.ok w, r')) : w.length ≤ L := by
  classical
  by_cases hall : ∀ k, 1 ≤ k → k ≤ n → (g.unlimited k r).1.length ≤ L
  · rw [expand_of_forall_le hL hall, Prod.mk.injEq, Except.ok.injEq] at h
    rw [← h.1]
    exact hall n hn (Nat.le_refl _)
  · -- the first generation over the limit makes expanding fail
    have hex : ∃ m, m < n ∧ L < (g.unlimited (m + 1) r).1.length := by
      simp only [not_forall, Nat.not_le] at hall
      obtain ⟨k, hk1, hkn, hk⟩ := hall
      exact ⟨k - 1, by omega, by rwa [Nat.sub_add_cancel hk1]⟩
    obtain ⟨hmn, hover⟩ := Nat.find_spec hex
    have hbelow (j : Nat) (hj1 : 1 ≤ j) (hjm : j ≤ Nat.find hex) :
        (g.unlimited j r).1.length ≤ L := by
      by_contra hj
      have hj' : j - 1 < n ∧ L < (g.unlimited (j - 1 + 1) r).1.length :=
        ⟨by omega, by rw [Nat.sub_add_cancel hj1]; omega⟩
      have := Nat.find_min' hex hj'
      omega
    obtain ⟨e, r'', he⟩ := expand_error_of_first_over hL hmn hover hbelow
    rw [he] at h
    simp at h

end Limit

/-- Under a limit `L`, expanding returns the generations grown without the limit until one
exceeds it, and refuses the first that does: up front when its length is known in advance,
otherwise at the shortest prefix whose rewrite exceeds the limit, the stream advanced exactly
that far. The start word is never checked. -/
theorem expand_guarded (g : Grammar) {L : Nat} (hL : g.maxLen = some L) (n : Nat) (r : Rng) :
    g.Guarded L n r where
  ok := expand_of_forall_le hL
  refused hcap m hmn hover hbelow hd := by
    obtain ⟨left, he⟩ := expand_eq_of_first_over hL hmn hbelow
    rw [unlimited_succ] at hover ⊢
    exact he.trans (expandLimited_succ_of_projected_lt hcap hover hd)
  stopped m hmn hover hbelow hd := by
    obtain ⟨left, he⟩ := expand_eq_of_first_over hL hmn hbelow
    rw [unlimited_succ] at hover ⊢
    obtain ⟨i, hi, hmin, heq⟩ := expandLimited_succ_of_written_lt (m + 1) left hover hd
    exact ⟨i, hi, length_step_take_le _ _ _ _, hmin, he.trans heq⟩
  start := by rw [expand_eq_expandLimited hL]; rfl
  length_le _ _ hn h := length_le_of_expand hL hn h

/-- The doubling grammar `A → AA` under the limit `8`. -/
theorem expand_guarded_doubling :
    ({ start := [65], rules := RuleTable.empty.set 65 (.fixed [65, 65]), maxLen := some 8 } :
      Grammar).maxLen = some 8 ∧
    ({ start := [65], rules := RuleTable.empty.set 65 (.fixed [65, 65]), maxLen := some 8 } :
      Grammar).Guarded 8 4 (Rng.ofSeed 0) :=
  ⟨rfl, expand_guarded _ rfl 4 (Rng.ofSeed 0)⟩

end Grammar

end Arbor