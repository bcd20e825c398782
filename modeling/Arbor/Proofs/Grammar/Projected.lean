import Mathlib
import Arbor.Proofs.Grammar.Step
/-!
# The projected length of a generation

Before a generation is written, its length is projected from the rules alone: a symbol with a
fixed rule counts the length of its replacement, a symbol without a rule counts one
(`Grammar.fixedLength`), and the counts are added with the sum capped at `countCap`. A symbol
with a dynamic rule cannot be counted, and then there is no projection, however far the sum has
already run.

Main statement: `Grammar.projectedLength_spec`. The projection is absent exactly when some symbol
has a dynamic rule, and is otherwise the capped sum; below the cap it is the length of the
generation, so it lies between the length of the word (when no replacement is empty) and the
length times the longest replacement.
-/

namespace Arbor

namespace Grammar

variable (g : Grammar)

/-- What `a` counts towards the next generation: the length of its fixed replacement, one without
a rule, and nothing with a dynamic rule, which is never counted. -/
def fixedLength (a : Symbol) : Nat :=
  match g.rules a with
  | some (.fixed u) => u.length
  | some (.dynamic _) => 0
  | none => 1

theorem draws_eq_true_iff (a : Symbol) :
    g.draws a = true ↔ ∃ gen, g.rules a = some (.dynamic gen) := by
  unfold draws
  cases g.rules a with
  | none => simp
  | some rule => cases rule <;> simp

theorem length_rewrite_of_draws_eq_false {a : Symbol} (h : g.draws a = false) (r : Rng) :
    (g.rewrite a r).1.length = g.fixedLength a := by
  have hlen := (g.rewrite_of_draws_eq_false h r).2
  unfold symbolLength? at hlen
  unfold fixedLength
  cases hr : g.rules a with
  | none => simpa [hr] using hlen.symm
  | some rule =>
    cases rule with
    | fixed u => simpa [hr, Rule.fixedLength?] using hlen.symm
    | dynamic gen => simp [draws, hr] at h

theorem length_step_of_not_any_draws {w : Word} (h : w.any g.draws = false) (r : Rng) :
    (g.step w r).1.length = (w.map g.fixedLength).sum := by
  induction w generalizing r with
  | nil => rfl
  | cons a w ih =>
    simp only [List.any_cons, Bool.or_eq_false_iff] at h
    rw [step_cons, List.length_append, g.length_rewrite_of_draws_eq_false h.1,
      (g.rewrite_of_draws_eq_false h.1 r).1, ih h.2, List.map_cons, List.sum_cons]

theorem any_draws_eq_false_of_projectedLength? {w : Word} {p : Nat}
    (h : g.projectedLength? w = some p) : w.any g.draws = false := by
  cases hw : w.any g.draws with
  | false => rfl
  | true => simp [g.projectedLength?_of_any_draws hw] at h

theorem projectedLength?_eq_min_sum {w : Word} (h : w.any g.draws = false) :
    g.projectedLength? w = some (min countCap (w.map g.fixedLength).sum) := by
  -- no symbol draws, so the empty stream gives the same generation as any
  rw [g.projectedLength?_of_not_any_draws h (Rng.ofSeed 0),
    g.length_step_of_not_any_draws h]

theorem eq_min_sum_of_projectedLength? {w : Word} {p : Nat} (h : g.projectedLength? w = some p) :
    p = min countCap (w.map g.fixedLength).sum := by
  rw [g.projectedLength?_eq_min_sum (g.any_draws_eq_false_of_projectedLength? h)] at h
  exact (Option.some.inj h).symm

variable {g}

theorem one_le_fixedLength (hne : ∀ a u, g.rules a = some (.fixed u) → u ≠ []) {a : Symbol}
    (ha : g.draws a = false) : 1 ≤ g.fixedLength a := by
  unfold fixedLength
  cases hr : g.rules a with
  | none => exact le_refl 1
  | some rule =>
    cases rule with
    | fixed u => exact List.length_pos_iff.2 (hne a u hr)
    | dynamic gen => simp [draws, hr] at ha

theorem fixedLength_le {K : Nat} (hK : 1 ≤ K)
    (hlen : ∀ a u, g.rules a = some (.fixed u) → u.length ≤ K) (a : Symbol) :
    g.fixedLength a ≤ K := by
  unfold fixedLength
  cases hr : g.rules a with
  | none => exact hK
  | some rule =>
    cases rule with
    | fixed u => exact hlen a u hr
    | dynamic gen => exact Nat.zero_le K

theorem length_le_sum_fixedLength (hne : ∀ a u, g.rules a = some (.fixed u) → u ≠ [])
    {w : Word} (h : w.any g.draws = false) : w.length ≤ (w.map g.fixedLength).sum := by
  have h1 : ∀ x ∈ w.map g.fixedLength, 1 ≤ x := by
    simp only [List.mem_map]
    rintro x ⟨a, ha, rfl⟩
    exact one_le_fixedLength hne (Bool.eq_false_iff.2 (List.any_eq_false.1 h a ha))
  simpa using List.card_nsmul_le_sum _ 1 h1

theorem sum_fixedLength_le {K : Nat} (hK : 1 ≤ K)
    (hlen : ∀ a u, g.rules a = some (.fixed u) → u.length ≤ K) (w : Word) :
    (w.map g.fixedLength).sum ≤ K * w.length := by
  have h := List.sum_le_card_nsmul (w.map g.fixedLength) K (by
    simp only [List.mem_map]
    rintro x ⟨a, -, rfl⟩
    exact fixedLength_le hK hlen a)
  simpa [Nat.mul_comm] using h

/-- What the projected length of the next generation of `w` says. -/
structure ProjectsLength (g : Grammar) (w : Word) : Prop where
  /-- There is no projection exactly when some symbol of `w` has a dynamic rule. -/
  none_iff : g.projectedLength? w = none ↔ ∃ a ∈ w, ∃ gen, g.rules a = some (.dynamic gen)
  /-- Otherwise it is the sum of the counts of the symbols, capped at `countCap`. -/
  eq_min_sum : (∀ a ∈ w, ∀ gen, g.rules a ≠ some (.dynamic gen)) →
    g.projectedLength? w = some (min countCap (w.map g.fixedLength).sum)
  /-- A sum within the cap is the length of the next generation. -/
  eq_length : (∀ a ∈ w, ∀ gen, g.rules a ≠ some (.dynamic gen)) →
    (w.map g.fixedLength).sum ≤ countCap →
      ∀ r, g.projectedLength? w = some (g.step w r).1.length
  /-- With no empty replacement it is at least the length of the word. -/
  length_le : (∀ a u, g.rules a = some (.fixed u) → u ≠ []) → w.length ≤ countCap →
    ∀ p, g.projectedLength? w = some p → w.length ≤ p
  /-- It is at most the length of the word times any bound, at least one, on the replacements. -/
  le_mul : ∀ K, 1 ≤ K → (∀ a u, g.rules a = some (.fixed u) → u.length ≤ K) →
    ∀ p, g.projectedLength? w = some p → p ≤ K * w.length

/-- The projected length of the next generation is absent exactly when a symbol of the word has a
dynamic rule, and is otherwise the capped sum of the replacement lengths, a symbol without a rule
counting one; within the cap it is the length of the generation. -/
theorem projectedLength_spec (g : Grammar) (w : Word) : g.ProjectsLength w := by
  have hany : w.any g.draws = true ↔ ∃ a ∈ w, ∃ gen, g.rules a = some (.dynamic gen) := by
    simp only [List.any_eq_true, g.draws_eq_true_iff]
  have hnone :
      (∀ a ∈ w, ∀ gen, g.rules a ≠ some (.dynamic gen)) → w.any g.draws = false := by
    intro h
    rw [← Bool.not_eq_true, hany]
    rintro ⟨a, ha, gen, hgen⟩
    exact h a ha gen hgen
  refine ⟨?_, fun h => g.projectedLength?_eq_min_sum (hnone h), fun h hsum r => ?_, ?_, ?_⟩
  · constructor
    · intro h
      rw [← hany]
      cases hw : w.any g.draws with
      | false => simp [g.projectedLength?_eq_min_sum hw] at h
      | true => rfl
    · intro h
      exact g.projectedLength?_of_any_draws (hany.2 h)
  · rw [g.projectedLength?_eq_min_sum (hnone h), Nat.min_eq_right hsum,
      g.length_step_of_not_any_draws (hnone h)]
  · intro hne hw p hp
    have hsum := length_le_sum_fixedLength hne (g.any_draws_eq_false_of_projectedLength? hp)
    rw [g.eq_min_sum_of_projectedLength? hp]
    omega
  · intro K hK hlen p hp
    calc p = min countCap (w.map g.fixedLength).sum := g.eq_min_sum_of_projectedLength? hp
      _ ≤ (w.map g.fixedLength).sum := Nat.min_le_right _ _
      _ ≤ K * w.length := sum_fixedLength_le hK hlen w

end Grammar

end Arbor
