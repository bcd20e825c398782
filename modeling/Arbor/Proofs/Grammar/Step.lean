import Arbor.Grammar.Basic
/-!
# One generation, symbol by symbol

`Grammar.step` rewrites a word in one pass, threading the stream from left to right. So the
rewrite of `u ++ v` is the rewrite of `u` followed by the rewrite of `v` from where `u` left the
stream (`step_append`), and the rewrite of a prefix is a prefix of the rewrite.

A symbol *draws* when its rule is a dynamic rule, which may read the stream. In a word where
nothing draws the length of the next generation is known in advance: `projectedLength?` is then
the length of the rewrite, capped at `countCap`, and otherwise it is `none`
(`projectedLength?_of_any_draws`).
-/

namespace Arbor

namespace Grammar

variable (g : Grammar)

/-- Rewriting `a` runs a dynamic rule on the stream. -/
def draws (a : Symbol) : Bool :=
  match g.rules a with
  | some (.dynamic _) => true
  | _ => false

theorem stepFrom_eq (acc : List Symbol) (w : Word) (r : Rng) :
    g.stepFrom acc w r = (acc.reverse ++ (g.step w r).1, (g.step w r).2) := by
  induction w generalizing acc r with
  | nil => simp [stepFrom, step]
  | cons a w ih =>
    rcases hr : g.rewrite a r with ⟨rep, r'⟩
    simp only [step, stepFrom, hr]
    rw [ih, ih (rep.reverseAux [])]
    simp [List.reverseAux_eq]

@[simp] theorem step_nil (r : Rng) : g.step [] r = ([], r) := rfl

theorem step_cons (a : Symbol) (w : Word) (r : Rng) :
    g.step (a :: w) r =
      ((g.rewrite a r).1 ++ (g.step w (g.rewrite a r).2).1, (g.step w (g.rewrite a r).2).2) := by
  rcases hr : g.rewrite a r with ⟨rep, r'⟩
  show g.stepFrom [] (a :: w) r = _
  simp only [stepFrom, hr]
  rw [stepFrom_eq]
  simp [List.reverseAux_eq]

theorem step_append (u v : Word) (r : Rng) :
    g.step (u ++ v) r =
      ((g.step u r).1 ++ (g.step v (g.step u r).2).1, (g.step v (g.step u r).2).2) := by
  induction u generalizing r with
  | nil => simp
  | cons a u ih => simp [step_cons, ih]

theorem length_step_take_le (w : Word) (i : Nat) (r : Rng) :
    (g.step (w.take i) r).1.length ≤ (g.step w r).1.length := by
  have h := g.step_append (w.take i) (w.drop i) r
  rw [List.take_append_drop] at h
  rw [h, List.length_append]
  exact Nat.le_add_right _ _

theorem symbolLength?_eq_none_iff (a : Symbol) : g.symbolLength? a = none ↔ g.draws a = true := by
  cases hr : g.rules a with
  | none => simp [symbolLength?, draws, hr]
  | some rule => cases rule <;> simp [symbolLength?, draws, hr, Rule.fixedLength?]

/-- A symbol that does not draw is rewritten without touching the stream, to as many symbols as
its length in advance says. -/
theorem rewrite_of_draws_eq_false {a : Symbol} (h : g.draws a = false) (r : Rng) :
    (g.rewrite a r).2 = r ∧ g.symbolLength? a = some (g.rewrite a r).1.length := by
  cases hr : g.rules a with
  | none => simp [rewrite, symbolLength?, hr]
  | some rule =>
    cases rule with
    | fixed w => simp [rewrite, symbolLength?, hr, Rule.apply, Rule.fixedLength?]
    | dynamic gen => simp [draws, hr] at h

/-- The sum that `projectedLength?` folds. -/
theorem foldlM_length_of_not_any_draws {w : Word} (h : w.any g.draws = false) {acc : Nat}
    (hacc : acc ≤ countCap) (r : Rng) :
    w.foldlM (fun acc a => (g.symbolLength? a).map fun n => min countCap (acc + n)) acc =
      some (min countCap (acc + (g.step w r).1.length)) := by
  induction w generalizing acc r with
  | nil => simp [Nat.min_eq_right hacc]
  | cons a w ih =>
    simp only [List.any_cons, Bool.or_eq_false_iff] at h
    obtain ⟨hr, hlen⟩ := g.rewrite_of_draws_eq_false h.1 r
    rw [List.foldlM_cons, hlen, step_cons, hr]
    simp only [Option.map_some, Option.bind_eq_bind, Option.bind_some]
    rw [ih h.2 (Nat.min_le_left _ _) r]
    -- capping after each symbol caps the whole sum
    congr 1
    simp only [List.length_append]
    omega

theorem projectedLength?_of_not_any_draws {w : Word} (h : w.any g.draws = false) (r : Rng) :
    g.projectedLength? w = some (min countCap (g.step w r).1.length) := by
  rw [projectedLength?, g.foldlM_length_of_not_any_draws h (Nat.zero_le _) r, Nat.zero_add]

theorem projectedLength?_of_any_draws {w : Word} (h : w.any g.draws = true) :
    g.projectedLength? w = none := by
  unfold projectedLength?
  generalize 0 = acc
  induction w generalizing acc with
  | nil => simp at h
  | cons a w ih =>
    rw [List.foldlM_cons]
    cases ha : g.draws a
    · have hsome : g.symbolLength? a ≠ none :=
        mt (g.symbolLength?_eq_none_iff a).1 (by simp [ha])
      obtain ⟨n, hn⟩ := Option.ne_none_iff_exists'.1 hsome
      simp only [List.any_cons, ha, Bool.false_or] at h
      simp [hn, ih h]
    · simp [(g.symbolLength?_eq_none_iff a).2 ha]

end Grammar

end Arbor
