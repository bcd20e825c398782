import Mathlib
import Arbor.Fault
/-!
# Counting saved states

A turtle saves states on a stack and restores them later. Read a list as items that each restore
`closes x` saved states and then save `opens x`: from a stack of depth `d` the list runs to the
depth `Brackets.reach opens closes d xs`, or to `none` once an item restores more states than
remain.

Main statements: a run over `u ++ v` is a run over `u` and then over `v` (`reach_append`); when no
item both restores and saves, a run fails exactly when some prefix restores more than the start
depth and what the prefix saves (`reach_eq_none_iff`); otherwise it ends at the start depth plus
what the list saves, less what it restores (`reach_eq_some`). A run of a turtle that follows the
count is then read off the prefixes of its word (`underflow_iff_of_follows`, `depth_of_follows`).
-/

namespace Arbor

namespace Brackets

variable {α : Type} (opens closes : α → Nat)

/-- The depth reached from `d` over `xs`, or `none` once an item restores more than remain. -/
def reach : Nat → List α → Option Nat
  | d, [] => some d
  | d, x :: xs => if closes x ≤ d then reach (d - closes x + opens x) xs else none

@[simp] theorem reach_nil (d : Nat) : reach opens closes d [] = some d := rfl

theorem reach_cons (d : Nat) (x : α) (xs : List α) :
    reach opens closes d (x :: xs) =
      if closes x ≤ d then reach opens closes (d - closes x + opens x) xs else none := rfl

theorem reach_append (d : Nat) (u v : List α) :
    reach opens closes d (u ++ v) = (reach opens closes d u).bind (reach opens closes · v) := by
  induction u generalizing d with
  | nil => rfl
  | cons x u ih =>
    rw [List.cons_append, reach_cons, reach_cons]
    split
    · exact ih _
    · rfl

theorem reach_singleton (d : Nat) (x : α) :
    reach opens closes d [x] = if closes x ≤ d then some (d - closes x + opens x) else none := by
  rw [reach_cons]
  split <;> rfl

variable {opens closes}

theorem reach_eq_some {d e : Nat} {xs : List α} (h : reach opens closes d xs = some e) :
    e + (xs.map closes).sum = d + (xs.map opens).sum := by
  induction xs generalizing d with
  | nil =>
    rw [reach_nil, Option.some.injEq] at h
    simp [h]
  | cons x xs ih =>
    rw [reach_cons] at h
    split at h
    · have := ih h
      simp only [List.map_cons, List.sum_cons]
      omega
    · simp at h

theorem reach_add {d e : Nat} {xs : List α} (h : reach opens closes d xs = some e) (k : Nat) :
    reach opens closes (d + k) xs = some (e + k) := by
  induction xs generalizing d with
  | nil =>
    rw [reach_nil, Option.some.injEq] at h
    rw [reach_nil, h]
  | cons x xs ih =>
    rw [reach_cons] at h ⊢
    split at h
    · rename_i hfit
      rw [if_pos (by omega), show d + k - closes x + opens x = d - closes x + opens x + k by omega]
      exact ih h
    · cases h

/-- When no item both restores and saves, a run fails exactly when some prefix restores more
than the start depth and what the prefix saves. -/
theorem reach_eq_none_iff (hx : ∀ x, opens x = 0 ∨ closes x = 0) (d : Nat) (xs : List α) :
    reach opens closes d xs = none ↔
      ∃ p, p <+: xs ∧ d + (p.map opens).sum < (p.map closes).sum := by
  induction xs generalizing d with
  | nil => simp
  | cons x xs ih =>
    rw [reach_cons]
    split
    · -- the first item fits, so the failing prefix, if any, goes on into the rest
      rename_i hfit
      rw [ih]
      constructor
      · rintro ⟨p, hp, hlt⟩
        refine ⟨x :: p, List.cons_prefix_cons.2 ⟨rfl, hp⟩, ?_⟩
        simp only [List.map_cons, List.sum_cons]
        omega
      · rintro ⟨q, hq, hlt⟩
        rcases List.prefix_cons_iff.1 hq with rfl | ⟨p, rfl, hp⟩
        · simp at hlt
        · refine ⟨p, hp, ?_⟩
          simp only [List.map_cons, List.sum_cons] at hlt
          omega
    · -- the first item restores more than remain; it saves nothing, so it alone is the prefix
      rename_i hover
      refine ⟨fun _ => ⟨[x], List.cons_prefix_cons.2 ⟨rfl, List.nil_prefix⟩, ?_⟩,
        fun _ => rfl⟩
      rcases hx x with h | h
      · simp only [List.map_cons, List.map_nil, List.sum_cons, List.sum_nil, h]
        omega
      · omega

theorem reach_ne_none_iff (hx : ∀ x, opens x = 0 ∨ closes x = 0) (d : Nat) (xs : List α) :
    reach opens closes d xs ≠ none ↔
      ∀ p, p <+: xs → (p.map closes).sum ≤ d + (p.map opens).sum := by
  rw [Ne, reach_eq_none_iff hx]
  simp only [not_exists, not_and, Nat.not_lt]

theorem reach_replicate {x : α} (hx : opens x = 0 ∨ closes x = 0) (d n : Nat) :
    reach opens closes d (List.replicate n x) =
      if n * closes x ≤ d then some (d - n * closes x + n * opens x) else none := by
  induction n generalizing d with
  | zero => simp
  | succ n ih =>
    rw [List.replicate_succ, reach_cons, ih, Nat.add_mul, Nat.one_mul, Nat.add_mul, Nat.one_mul]
    rcases hx with h | h
    · -- restoring copies: the first fits and the rest fit after it, or the whole run does not
      simp only [h, Nat.mul_zero, Nat.add_zero]
      by_cases h₁ : closes x ≤ d
      · by_cases h₂ : n * closes x ≤ d - closes x
        · rw [if_pos h₁, if_pos h₂, if_pos (by omega)]
          congr 1
          omega
        · rw [if_pos h₁, if_neg h₂, if_neg (by omega)]
      · rw [if_neg h₁, if_neg (by omega)]
    · -- saving copies never fail
      simp only [h, Nat.mul_zero, Nat.zero_le, if_true, Nat.sub_zero, Nat.zero_add]
      congr 1
      omega

/-- The first prefix that restores too much ends in an item that restores more than the run
before it left. -/
theorem reach_of_first_over (hx : ∀ x, opens x = 0 ∨ closes x = 0) {d : Nat} {u : List α}
    {x : α} (hu : ∀ p, p <+: u → (p.map closes).sum ≤ d + (p.map opens).sum)
    (hover : d + ((u ++ [x]).map opens).sum < ((u ++ [x]).map closes).sum) :
    ∃ e, reach opens closes d u = some e ∧ e < closes x := by
  obtain ⟨e, he⟩ := Option.ne_none_iff_exists'.1 ((reach_ne_none_iff hx d u).2 hu)
  have hsum := reach_eq_some he
  simp only [List.map_append, List.sum_append, List.map_cons, List.map_nil, List.sum_cons,
    List.sum_nil] at hover
  refine ⟨e, he, ?_⟩
  rcases hx x with h | h <;> omega

/-! ## Runs that follow the count

A run over `xs` from nothing saved follows the count when it succeeds at the depth the count
reaches, and fails with an underflow where the count fails. Its outcome is then read off the
prefixes of `xs`. -/

section Follows

variable {xs : List α} {fault : Option Fault} {depth : Nat}
  (hsome : ∀ e, reach opens closes 0 xs = some e → fault = none ∧ depth = e)
  (hnone : reach opens closes 0 xs = none → fault = some .stackUnderflow)
include hsome hnone

theorem underflow_iff_reach_eq_none :
    fault = some .stackUnderflow ↔ reach opens closes 0 xs = none := by
  cases hreach : reach opens closes 0 xs with
  | none => exact iff_of_true (hnone hreach) rfl
  | some e =>
    rw [(hsome e hreach).1]
    exact iff_of_false (by simp) (by simp)

theorem underflow_iff_of_follows (hx : ∀ x, opens x = 0 ∨ closes x = 0) :
    fault = some .stackUnderflow ↔ ∃ p, p <+: xs ∧ (p.map opens).sum < (p.map closes).sum := by
  rw [underflow_iff_reach_eq_none hsome hnone, reach_eq_none_iff hx]
  simp only [Nat.zero_add]

theorem ok_or_underflow_of_follows : fault = none ∨ fault = some .stackUnderflow := by
  cases hreach : reach opens closes 0 xs with
  | none => exact .inr (hnone hreach)
  | some e => exact .inl (hsome e hreach).1

theorem depth_of_follows (hok : fault = none) :
    depth + (xs.map closes).sum = (xs.map opens).sum := by
  cases hreach : reach opens closes 0 xs with
  | none =>
    rw [hnone hreach] at hok
    cases hok
  | some e =>
    rw [(hsome e hreach).2]
    simpa using reach_eq_some hreach

end Follows

end Brackets

end Arbor
