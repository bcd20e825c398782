import Arbor.Interpret.Plane
import Arbor.Interpret.Space
import Arbor.Proofs.Interpret.Brackets
import Arbor.Proofs.Skeleton.Walk
import Arbor.Proofs.Interpret.RunLength
/-!
# Walks that restore more poses than they saved

Each action saves some poses and restores some (`PlaneAction.opens`, `PlaneAction.closes`): a push
or push-and-turn saves one, a pop or pop-and-turn restores one, and a repeated pop restores as many
times as it says. A walk fails exactly when it asks to restore a pose that was never saved, that
is, when some prefix of its word restores more poses than it saves.

Main statements: an action with enough poses saved succeeds and changes the depth by what it saves
less what it restores, and one without fails before it draws anything
(`PlaneAction.runAll_plan_of_le`, `PlaneAction.runAll_plan_of_lt`); a walk therefore follows
`Brackets.reach` symbol by symbol (`PlaneInterpreter.walk_of_reach_some`,
`PlaneInterpreter.walk_of_reach_none`), and `PlaneInterpreter.interpret_underflow` reads this back
on prefixes of the word. The space turtle is handled the same way, step by step, and its trace
stays balanced along every run (`SpaceInterpreter.interpretFrom_underflow`).
-/

namespace Arbor

/-! ## Plane turtles -/

namespace PlaneTurtle

variable (t : PlaneTurtle)

@[simp] theorem advance_saved (d : Float32) : (t.advance d).saved = t.saved := rfl

@[simp] theorem rotate_saved (deg : Float32) : (t.rotate deg).saved = t.saved := rfl

@[simp] theorem setColor_saved (c : Color) : (t.setColor c).saved = t.saved := rfl

@[simp] theorem push_saved : t.push.saved = t.pose :: t.saved := rfl

theorem popTimes_of_le {n : Nat} (h : n ≤ t.depth) :
    (t.popTimes n).2 = none ∧ (t.popTimes n).1.depth = t.depth - n := by
  induction n generalizing t with
  | zero => exact ⟨rfl, rfl⟩
  | succ n ih =>
    obtain ⟨pose, saved⟩ := t
    cases saved with
    | nil => simp [depth] at h
    | cons p rest =>
      have := ih ⟨p, rest⟩ (by simp [depth] at h ⊢; omega)
      simpa [popTimes, pop, depth] using this

theorem popTimes_of_lt {n : Nat} (h : t.depth < n) : (t.popTimes n).2 = some .stackUnderflow := by
  induction n generalizing t with
  | zero => omega
  | succ n ih =>
    obtain ⟨pose, saved⟩ := t
    cases saved with
    | nil => rfl
    | cons p rest => exact ih ⟨p, rest⟩ (by simp [depth] at h ⊢; omega)

end PlaneTurtle

/-! ## What an action saves and restores -/

namespace PlaneAction

/-- The poses an action saves. -/
def opens : PlaneAction → Nat
  | .push | .pushRotate _ => 1
  | _ => 0

/-- The poses an action restores. -/
def closes : PlaneAction → Nat
  | .pop | .popRotate _ => 1
  | .popTimes n => n
  | _ => 0

theorem opens_eq_zero_or_closes_eq_zero (a : PlaneAction) : a.opens = 0 ∨ a.closes = 0 := by
  cases a <;> simp [opens, closes]

theorem runAll_plan_of_le (a : PlaneAction) {t : PlaneTurtle} (h : a.closes ≤ t.depth)
    (c : Canvas) (r : Rng) :
    (PlaneStep.runAll t c (a.plan r).1).2.2 = none ∧
      (PlaneStep.runAll t c (a.plan r).1).1.depth = t.depth - a.closes + a.opens := by
  cases a with
  | pop | popRotate =>
    obtain ⟨pose, _ | ⟨p, rest⟩⟩ := t
    · simp [closes, PlaneTurtle.depth] at h
    · simp [plan, PlaneStep.runAll, PlaneStep.run, PlaneTurtle.pop, closes, opens,
        PlaneTurtle.depth]
  | popTimes n =>
    obtain ⟨hok, hdepth⟩ := t.popTimes_of_le (n := n) h
    rcases hpop : t.popTimes n with ⟨t', f⟩
    rw [hpop] at hok hdepth
    obtain rfl : f = none := hok
    simp [plan, PlaneStep.runAll, PlaneStep.run, hpop, hdepth, closes, opens]
  | _ => simp [plan, PlaneStep.runAll, PlaneStep.run, closes, opens, PlaneTurtle.depth]

theorem runAll_plan_of_lt (a : PlaneAction) {t : PlaneTurtle} (h : t.depth < a.closes)
    (c : Canvas) (r : Rng) :
    (PlaneStep.runAll t c (a.plan r).1).2.2 = some .stackUnderflow ∧
      (PlaneStep.runAll t c (a.plan r).1).2.1 = c := by
  cases a with
  | pop | popRotate =>
    obtain ⟨pose, _ | ⟨p, rest⟩⟩ := t
    · simp [plan, PlaneStep.runAll, PlaneStep.run, PlaneTurtle.pop]
    · simp [closes, PlaneTurtle.depth] at h
  | popTimes n =>
    have hfail := t.popTimes_of_lt (n := n) h
    rcases hpop : t.popTimes n with ⟨t', f⟩
    rw [hpop] at hfail
    obtain rfl : f = some .stackUnderflow := hfail
    simp [plan, PlaneStep.runAll, PlaneStep.run, hpop]
  | _ => simp [closes] at h

end PlaneAction

/-! ## Walks -/

namespace PlaneInterpreter

variable (ip : PlaneInterpreter)

/-- The poses the action of a symbol saves. -/
def saves (a : Symbol) : Nat := (ip.actions a).opens

/-- The poses the action of a symbol restores. -/
def restores (a : Symbol) : Nat := (ip.actions a).closes

theorem saves_eq_zero_or_restores_eq_zero (a : Symbol) : ip.saves a = 0 ∨ ip.restores a = 0 :=
  (ip.actions a).opens_eq_zero_or_closes_eq_zero

theorem walk_cons (st : PlaneWalk) (a : Symbol) (rest : Word) :
    ip.walk st (a :: rest) =
      match PlaneStep.runAll st.turtle st.canvas ((ip.actions a).plan st.rng).1 with
      | (t, c, none) => ip.walk ⟨t, c, ((ip.actions a).plan st.rng).2⟩ rest
      | (t, c, some e) => (⟨t, c, ((ip.actions a).plan st.rng).2⟩, some e) := rfl

variable {ip}

theorem walk_cons_of_le {st : PlaneWalk} {a : Symbol} (h : ip.restores a ≤ st.turtle.depth)
    (rest : Word) :
    ∃ st' : PlaneWalk, st'.turtle.depth = st.turtle.depth - ip.restores a + ip.saves a ∧
      ip.walk st (a :: rest) = ip.walk st' rest := by
  obtain ⟨hok, hdepth⟩ := (ip.actions a).runAll_plan_of_le h st.canvas st.rng
  rw [walk_cons]
  rcases hrun : PlaneStep.runAll st.turtle st.canvas ((ip.actions a).plan st.rng).1 with
    ⟨t, c, _ | f⟩
  · rw [hrun] at hdepth
    exact ⟨⟨t, c, _⟩, hdepth, rfl⟩
  · rw [hrun] at hok
    cases hok

theorem walk_cons_of_lt {st : PlaneWalk} {a : Symbol} (h : st.turtle.depth < ip.restores a)
    (rest : Word) :
    (ip.walk st (a :: rest)).2 = some .stackUnderflow ∧
      (ip.walk st (a :: rest)).1.canvas = st.canvas := by
  obtain ⟨hfail, hcanvas⟩ := (ip.actions a).runAll_plan_of_lt h st.canvas st.rng
  rw [walk_cons]
  rcases hrun : PlaneStep.runAll st.turtle st.canvas ((ip.actions a).plan st.rng).1 with
    ⟨t, c, _ | f⟩
  · rw [hrun] at hfail
    cases hfail
  · rw [hrun] at hfail hcanvas
    exact ⟨hfail, hcanvas⟩

theorem walk_of_reach_some (st : PlaneWalk) {w : Word} {e : Nat}
    (h : Brackets.reach ip.saves ip.restores st.turtle.depth w = some e) :
    (ip.walk st w).2 = none ∧ (ip.walk st w).1.turtle.depth = e := by
  induction w generalizing st with
  | nil =>
    rw [Brackets.reach_nil, Option.some.injEq] at h
    exact ⟨rfl, h⟩
  | cons a w ih =>
    rw [Brackets.reach_cons] at h
    split at h
    · rename_i hle
      obtain ⟨st', hdepth, hwalk⟩ := walk_cons_of_le hle w
      rw [← hdepth] at h
      rw [hwalk]
      exact ih st' h
    · cases h

theorem walk_of_reach_none (st : PlaneWalk) {w : Word}
    (h : Brackets.reach ip.saves ip.restores st.turtle.depth w = none) :
    (ip.walk st w).2 = some .stackUnderflow := by
  induction w generalizing st with
  | nil => cases h
  | cons a w ih =>
    rw [Brackets.reach_cons] at h
    split at h
    · -- the symbol succeeds; the failure lies further on
      rename_i hle
      obtain ⟨st', hdepth, hwalk⟩ := walk_cons_of_le hle w
      rw [← hdepth] at h
      rw [hwalk]
      exact ih st' h
    · rename_i hlt
      exact (walk_cons_of_lt (Nat.lt_of_not_le hlt) w).1

theorem walk_append_of_ok {st : PlaneWalk} {u : Word} (h : (ip.walk st u).2 = none) (v : Word) :
    ip.walk st (u ++ v) = ip.walk (ip.walk st u).1 v := by
  induction u generalizing st with
  | nil => rfl
  | cons a u ih =>
    rw [List.cons_append, walk_cons, walk_cons]
    rw [walk_cons] at h
    rcases hrun : PlaneStep.runAll st.turtle st.canvas ((ip.actions a).plan st.rng).1 with
      ⟨t, c, _ | f⟩
    · simp only [hrun] at h ⊢
      exact ih h
    · simp [hrun] at h

/-- How a walk from a fresh turtle answers to the poses its word saves and restores. -/
structure Underflows (ip : PlaneInterpreter) (w : Word) (origin : Vec2) (heading : Float32)
    (canvas : Canvas) (r : Rng) : Prop where
  /-- The walk fails with an underflow exactly when some prefix of the word restores more poses
  than it saves. -/
  fails_iff : (ip.interpret w origin heading canvas r).2 = some .stackUnderflow ↔
    ∃ p, p <+: w ∧ (p.map ip.saves).sum < (p.map ip.restores).sum
  /-- It fails in no other way. -/
  fault : (ip.interpret w origin heading canvas r).2 = none ∨
    (ip.interpret w origin heading canvas r).2 = some .stackUnderflow
  /-- Failing at the first symbol `a` that restores too much, the walk leaves the canvas as the
  walk of the word before `a` leaves it, and that walk succeeds. -/
  canvas_of_first_over : ∀ u a, u ++ [a] <+: w →
    (∀ p, p <+: u → (p.map ip.restores).sum ≤ (p.map ip.saves).sum) →
    ((u ++ [a]).map ip.saves).sum < ((u ++ [a]).map ip.restores).sum →
    (ip.interpret u origin heading canvas r).2 = none ∧
      (ip.interpret w origin heading canvas r).1.canvas =
        (ip.interpret u origin heading canvas r).1.canvas
  /-- A walk that succeeds ends with the poses the word saves, less those it restores. -/
  depth_of_ok : (ip.interpret w origin heading canvas r).2 = none →
    (ip.interpret w origin heading canvas r).1.turtle.depth + (w.map ip.restores).sum =
      (w.map ip.saves).sum

/-- A walk fails exactly at the first symbol that restores a pose never saved: the canvas is then
what the symbols before it drew, and a walk that succeeds ends with the poses its word saves,
less those it restores. -/
theorem interpret_underflow (ip : PlaneInterpreter) (w : Word) (origin : Vec2) (heading : Float32)
    (canvas : Canvas) (r : Rng) : ip.Underflows w origin heading canvas r := by
  have hx := ip.saves_eq_zero_or_restores_eq_zero
  let st : PlaneWalk := ⟨⟨⟨origin, heading, ip.config.color⟩, []⟩, canvas, r⟩
  have hst (u : Word) : ip.interpret u origin heading canvas r = ip.walk st u := rfl
  have hsome (e : Nat) (h : Brackets.reach ip.saves ip.restores 0 w = some e) :
      (ip.interpret w origin heading canvas r).2 = none ∧
        (ip.interpret w origin heading canvas r).1.turtle.depth = e := by
    rw [hst]
    exact walk_of_reach_some st h
  have hnone (h : Brackets.reach ip.saves ip.restores 0 w = none) :
      (ip.interpret w origin heading canvas r).2 = some .stackUnderflow := by
    rw [hst]
    exact walk_of_reach_none st h
  refine ⟨Brackets.underflow_iff_of_follows hsome hnone hx,
    Brackets.ok_or_underflow_of_follows hsome hnone, fun u a hpre hu hover => ?_,
    Brackets.depth_of_follows hsome hnone⟩
  -- the word before `a` is walked to the end, and `a` then fails at once
  obtain ⟨e, he, hlt⟩ :=
    Brackets.reach_of_first_over hx (d := 0) (by simpa using hu) (by simpa using hover)
  obtain ⟨hok, hdepth⟩ := walk_of_reach_some st he
  obtain ⟨rest, rfl⟩ := hpre
  refine ⟨hok, ?_⟩
  rw [hst, hst, List.append_assoc, List.singleton_append, walk_append_of_ok hok]
  exact (walk_cons_of_lt (by rw [hdepth]; exact hlt) rest).2

end PlaneInterpreter

/-! ## Space turtles -/

namespace SpaceStep

/-- The poses a step saves. -/
def opens : SpaceStep → Nat
  | .push => 1
  | _ => 0

/-- The poses a step restores. -/
def closes : SpaceStep → Nat
  | .pop => 1
  | _ => 0

theorem opens_eq_zero_or_closes_eq_zero (s : SpaceStep) : s.opens = 0 ∨ s.closes = 0 := by
  cases s <;> simp [opens, closes]

theorem run_of_le {s : SpaceStep} {t : SpaceTurtle} (h : s.closes ≤ t.depth) :
    (s.run t).2 = none ∧ (s.run t).1.depth = t.depth - s.closes + s.opens := by
  cases s with
  | pop =>
    obtain ⟨pose, _ | ⟨p, rest⟩, events⟩ := t
    · simp [closes, SpaceTurtle.depth] at h
    · simp [run, SpaceTurtle.pop, closes, opens, SpaceTurtle.depth]
  | _ => simp [run, SpaceTurtle.moveForward, SpaceTurtle.rotate, SpaceTurtle.push, closes, opens,
      SpaceTurtle.depth]

theorem run_of_lt {s : SpaceStep} {t : SpaceTurtle} (h : t.depth < s.closes) :
    s.run t = (t, some .stackUnderflow) := by
  cases s with
  | pop =>
    obtain ⟨pose, _ | ⟨p, rest⟩, events⟩ := t
    · rfl
    · simp [closes, SpaceTurtle.depth] at h
  | _ => simp [closes] at h

theorem runAll_cons_of_le {s : SpaceStep} {t : SpaceTurtle} (h : s.closes ≤ t.depth)
    (steps : List SpaceStep) :
    ∃ t₁ : SpaceTurtle, t₁.depth = t.depth - s.closes + s.opens ∧
      runAll t (s :: steps) = runAll t₁ steps := by
  obtain ⟨hok, hdepth⟩ := run_of_le h
  rcases hs : s.run t with ⟨t₁, _ | f⟩
  · rw [hs] at hdepth
    exact ⟨t₁, hdepth, by simp [runAll, hs]⟩
  · rw [hs] at hok
    cases hok

theorem runAll_of_reach_some {t : SpaceTurtle} {steps : List SpaceStep} {e : Nat}
    (h : Brackets.reach opens closes t.depth steps = some e) :
    (runAll t steps).2 = none ∧ (runAll t steps).1.depth = e := by
  induction steps generalizing t with
  | nil =>
    rw [Brackets.reach_nil, Option.some.injEq] at h
    exact ⟨rfl, h⟩
  | cons s steps ih =>
    rw [Brackets.reach_cons] at h
    split at h
    · rename_i hle
      obtain ⟨t₁, hdepth, hrun⟩ := runAll_cons_of_le hle steps
      rw [← hdepth] at h
      rw [hrun]
      exact ih h
    · cases h

theorem runAll_of_reach_none {t : SpaceTurtle} {steps : List SpaceStep}
    (h : Brackets.reach opens closes t.depth steps = none) :
    (runAll t steps).2 = some .stackUnderflow := by
  induction steps generalizing t with
  | nil => cases h
  | cons s steps ih =>
    rw [Brackets.reach_cons] at h
    split at h
    · rename_i hle
      obtain ⟨t₁, hdepth, hrun⟩ := runAll_cons_of_le hle steps
      rw [← hdepth] at h
      rw [hrun]
      exact ih h
    · simp [runAll, run_of_lt (Nat.lt_of_not_le ‹_›)]

end SpaceStep

namespace SpaceAction

/-- The poses an action saves at each copy of its run. -/
def opens : SpaceAction → Nat
  | .push | .pushTurn _ => 1
  | _ => 0

/-- The poses an action restores at each copy of its run. -/
def closes : SpaceAction → Nat
  | .pop | .popTurn _ => 1
  | _ => 0

theorem opens_eq_zero_or_closes_eq_zero (a : SpaceAction) : a.opens = 0 ∨ a.closes = 0 := by
  cases a <;> simp [opens, closes]

theorem reach_spins (lo hi : Float32) (n : Nat) (r : Rng) (d : Nat) :
    Brackets.reach SpaceStep.opens SpaceStep.closes d (spins lo hi n r).1 = some d := by
  induction n generalizing r with
  | zero => rfl
  | succ n ih => simpa [spins, Brackets.reach_cons, SpaceStep.opens, SpaceStep.closes] using ih _

theorem reach_randomTurns (before : SpaceStep) (tr : RandomTurn) (n : Nat) (r : Rng) (d : Nat) :
    Brackets.reach SpaceStep.opens SpaceStep.closes d (randomTurns before tr n r).1 =
      Brackets.reach SpaceStep.opens SpaceStep.closes d (List.replicate n before) := by
  induction n generalizing r d with
  | zero => rfl
  | succ n ih =>
    simp only [randomTurns, List.replicate_succ, Brackets.reach_cons]
    split
    · simp only [SpaceStep.opens, SpaceStep.closes, Nat.zero_le, if_true, Nat.sub_zero,
        Nat.add_zero, ih]
    · rfl

theorem reach_plan (a : SpaceAction) (n : Nat) (r : Rng) (d : Nat) :
    Brackets.reach SpaceStep.opens SpaceStep.closes d (a.plan n r).1 =
      if n * a.closes ≤ d then some (d - n * a.closes + n * a.opens) else none := by
  have hstep := SpaceStep.opens_eq_zero_or_closes_eq_zero
  cases a with
  | rotate y p =>
    simp [plan, Brackets.reach_replicate (hstep _), SpaceStep.opens, SpaceStep.closes, opens,
      closes]
  | push =>
    simp [plan, Brackets.reach_replicate (hstep _), SpaceStep.opens, SpaceStep.closes, opens,
      closes]
  | pop =>
    simp [plan, Brackets.reach_replicate (hstep _), SpaceStep.opens, SpaceStep.closes, opens,
      closes]
  | spin lo hi => simp [plan, reach_spins, opens, closes]
  | pushTurn tr =>
    simp [plan, reach_randomTurns, Brackets.reach_replicate (hstep _), SpaceStep.opens,
      SpaceStep.closes, opens, closes]
  | popTurn tr =>
    simp [plan, reach_randomTurns, Brackets.reach_replicate (hstep _), SpaceStep.opens,
      SpaceStep.closes, opens, closes]
  | _ => simp [plan, Brackets.reach_cons, SpaceStep.opens, SpaceStep.closes, opens, closes]

end SpaceAction

namespace SpaceInterpreter

variable (ip : SpaceInterpreter)

/-- The poses the action of a symbol saves. -/
def saves (a : Symbol) : Nat := (ip.actions a).opens

/-- The poses the action of a symbol restores. -/
def restores (a : Symbol) : Nat := (ip.actions a).closes

theorem saves_eq_zero_or_restores_eq_zero (a : Symbol) : ip.saves a = 0 ∨ ip.restores a = 0 :=
  (ip.actions a).opens_eq_zero_or_closes_eq_zero

theorem reach_plan (a : Symbol) (n : Nat) (r : Rng) (d : Nat) :
    Brackets.reach SpaceStep.opens SpaceStep.closes d ((ip.actions a).plan n r).1 =
      Brackets.reach ip.saves ip.restores d (List.replicate n a) := by
  rw [SpaceAction.reach_plan, Brackets.reach_replicate (ip.saves_eq_zero_or_restores_eq_zero a)]
  rfl

theorem runAll_plan_fails_iff (a : Symbol) (n : Nat) (t : SpaceTurtle) (r : Rng) :
    (SpaceStep.runAll t ((ip.actions a).plan n r).1).2 = some .stackUnderflow ↔
      t.depth < n * ip.restores a := by
  have hreach := SpaceAction.reach_plan (ip.actions a) n r t.depth
  by_cases h : n * (ip.actions a).closes ≤ t.depth
  · rw [if_pos h] at hreach
    rw [(SpaceStep.runAll_of_reach_some hreach).1]
    simp only [reduceCtorEq, false_iff, Nat.not_lt]
    exact h
  · rw [if_neg h] at hreach
    rw [SpaceStep.runAll_of_reach_none hreach]
    simp only [true_iff]
    exact Nat.lt_of_not_le h

variable {ip}

theorem walkRuns_cons_of_reach {t : SpaceTurtle} {r : Rng} {a : Symbol} {n d : Nat}
    (h : Brackets.reach SpaceStep.opens SpaceStep.closes t.depth ((ip.actions a).plan n r).1 =
      some d) (runs : List (Symbol × Nat)) :
    ∃ t₁ : SpaceTurtle, t₁.depth = d ∧
      ip.walkRuns t r ((a, n) :: runs) = ip.walkRuns t₁ ((ip.actions a).plan n r).2 runs := by
  obtain ⟨hok, hdepth⟩ := SpaceStep.runAll_of_reach_some h
  rcases hrun : SpaceStep.runAll t ((ip.actions a).plan n r).1 with ⟨t₁, _ | f⟩
  · rw [hrun] at hdepth
    exact ⟨t₁, hdepth, by simp [walkRuns, hrun]⟩
  · rw [hrun] at hok
    cases hok

theorem walkRuns_of_reach_some {t : SpaceTurtle} {r : Rng} {runs : List (Symbol × Nat)} {e : Nat}
    (h : Brackets.reach ip.saves ip.restores t.depth
      (expandRuns runs) = some e) :
    (ip.walkRuns t r runs).2.2 = none ∧ (ip.walkRuns t r runs).1.depth = e := by
  induction runs generalizing t r with
  | nil =>
    rw [expandRuns_nil, Brackets.reach_nil, Option.some.injEq] at h
    exact ⟨rfl, h⟩
  | cons run runs ih =>
    obtain ⟨a, n⟩ := run
    rw [expandRuns_cons, Brackets.reach_append, ← ip.reach_plan a n r] at h
    obtain ⟨d, hd, hrest⟩ := Option.bind_eq_some_iff.1 h
    obtain ⟨t₁, hdepth, hwalk⟩ := walkRuns_cons_of_reach hd runs
    rw [← hdepth] at hrest
    rw [hwalk]
    exact ih hrest

theorem walkRuns_of_reach_none {t : SpaceTurtle} {r : Rng} {runs : List (Symbol × Nat)}
    (h : Brackets.reach ip.saves ip.restores t.depth
      (expandRuns runs) = none) :
    (ip.walkRuns t r runs).2.2 = some .stackUnderflow := by
  induction runs generalizing t r with
  | nil => cases h
  | cons run runs ih =>
    obtain ⟨a, n⟩ := run
    rw [expandRuns_cons, Brackets.reach_append, ← ip.reach_plan a n r] at h
    cases hd :
        Brackets.reach SpaceStep.opens SpaceStep.closes t.depth ((ip.actions a).plan n r).1 with
    | none =>
      have hfail := SpaceStep.runAll_of_reach_none hd
      rcases hrun : SpaceStep.runAll t ((ip.actions a).plan n r).1 with ⟨t₁, _ | f⟩
      · rw [hrun] at hfail
        cases hfail
      · rw [hrun] at hfail
        simp [walkRuns, hrun, hfail]
    | some d =>
      rw [hd, Option.bind_some] at h
      obtain ⟨t₁, hdepth, hwalk⟩ := walkRuns_cons_of_reach hd runs
      rw [← hdepth] at h
      rw [hwalk]
      exact ih h

end SpaceInterpreter

/-! ## The trace of a space turtle -/

namespace Event

/-- A push event saves a pose. -/
def opens : Event → Nat
  | .push => 1
  | _ => 0

/-- A pop event restores one. -/
def closes : Event → Nat
  | .pop => 1
  | _ => 0

end Event

theorem SpaceStep.run_fst_of_fault {s : SpaceStep} {t : SpaceTurtle} {f : Fault}
    (h : (s.run t).2 = some f) : (s.run t).1 = t := by
  by_cases hle : s.closes ≤ t.depth
  · rw [(run_of_le hle).1] at h
    cases h
  · rw [run_of_lt (Nat.lt_of_not_le hle)]

namespace SpaceTurtle

open Relation

/-- The trace accounts for the saved poses: counted from nothing, its pops never outnumber its
pushes, and it ends at the poses saved now. -/
def TraceBalanced (t : SpaceTurtle) : Prop :=
  Brackets.reach Event.opens Event.closes 0 t.events.toList = some t.depth

theorem traceBalanced_startingAt (pose : SpacePose) : (startingAt pose).TraceBalanced := rfl

theorem TraceBalanced.record {t t' : SpaceTurtle} (h : t.TraceBalanced) {ev : Event}
    (hev : t'.events = t.events.push ev) (hle : ev.closes ≤ t.depth)
    (hdepth : t'.depth = t.depth - ev.closes + ev.opens) : t'.TraceBalanced := by
  unfold TraceBalanced at h ⊢
  rw [hev, Array.toList_push, Brackets.reach_append, h, Option.bind_some,
    Brackets.reach_singleton, if_pos hle, hdepth]

theorem TraceBalanced.run {t t' : SpaceTurtle} (h : t.TraceBalanced) {s : SpaceStep}
    (hs : s.run t = (t', none)) : t'.TraceBalanced := by
  cases s with
  | move d =>
    obtain ⟨rfl, -⟩ := Prod.mk.inj hs
    exact h.record (moveForward_events t d) (Nat.zero_le _)
      (by simp [depth, Event.opens, Event.closes])
  | rotate yaw pitch =>
    obtain ⟨rfl, -⟩ := Prod.mk.inj hs
    exact h.record (rotate_events t yaw pitch) (Nat.zero_le _)
      (by simp [depth, Event.opens, Event.closes])
  | push =>
    obtain ⟨rfl, -⟩ := Prod.mk.inj hs
    exact h.record (push_events t) (Nat.zero_le _) (by simp [depth, Event.opens, Event.closes])
  | pop =>
    obtain ⟨pose, saved, events⟩ := t
    cases saved with
    | nil => simp [SpaceStep.run, SpaceTurtle.pop] at hs
    | cons p rest =>
      obtain ⟨rfl, -⟩ := Prod.mk.inj hs
      exact h.record rfl (by simp [depth, Event.closes])
        (by simp [depth, Event.opens, Event.closes])

theorem TraceBalanced.reflTransGen {t t' : SpaceTurtle} (h : t.TraceBalanced)
    (hw : ReflTransGen StepsTo t t') : t'.TraceBalanced := by
  induction hw with
  | refl => exact h
  | tail _ hstep ih =>
    obtain ⟨s, hs⟩ := hstep
    exact ih.run hs

/-- Running steps reaches its result by the steps that succeed: a failing step changes nothing. -/
theorem reflTransGen_runAll (t : SpaceTurtle) (steps : List SpaceStep) :
    ReflTransGen StepsTo t (SpaceStep.runAll t steps).1 := by
  induction steps generalizing t with
  | nil => exact .refl
  | cons s steps ih =>
    rcases hs : s.run t with ⟨t₁, _ | f⟩
    · simp only [SpaceStep.runAll, hs]
      exact ReflTransGen.head ⟨s, hs⟩ (ih t₁)
    · have ht : t₁ = t := by
        have := SpaceStep.run_fst_of_fault (s := s) (t := t) (f := f) (by rw [hs])
        rwa [hs] at this
      simp only [SpaceStep.runAll, hs, ht]
      exact .refl

end SpaceTurtle

namespace SpaceInterpreter

open Relation

theorem reflTransGen_walkRuns (ip : SpaceInterpreter) (t : SpaceTurtle) (r : Rng)
    (runs : List (Symbol × Nat)) :
    ReflTransGen SpaceTurtle.StepsTo t (ip.walkRuns t r runs).1 := by
  induction runs generalizing t r with
  | nil => exact .refl
  | cons run runs ih =>
    obtain ⟨a, n⟩ := run
    have hsteps := SpaceTurtle.reflTransGen_runAll t ((ip.actions a).plan n r).1
    rcases hrun : SpaceStep.runAll t ((ip.actions a).plan n r).1 with ⟨t₁, _ | f⟩
    · rw [hrun] at hsteps
      simp only [walkRuns, hrun]
      exact hsteps.trans (ih t₁ _)
    · rw [hrun] at hsteps
      simpa [walkRuns, hrun] using hsteps

/-- How a walk from `start` answers to the poses its word saves and restores. -/
structure Underflows (ip : SpaceInterpreter) (w : Word) (start : SpacePose) (r : Rng) : Prop where
  /-- The walk fails with an underflow exactly when some prefix of the word restores more poses
  than it saves, though it dispatches runs of equal symbols at once. -/
  fails_iff : (ip.interpretFrom w start r).2.2 = some .stackUnderflow ↔
    ∃ p, p <+: w ∧ (p.map ip.saves).sum < (p.map ip.restores).sum
  /-- It fails in no other way. -/
  fault : (ip.interpretFrom w start r).2.2 = none ∨
    (ip.interpretFrom w start r).2.2 = some .stackUnderflow
  /-- A run of `n` copies of `a` fails exactly when fewer than `n` times what `a` restores are
  saved. -/
  run_fails_iff : ∀ a n (t : SpaceTurtle) (r' : Rng),
    (SpaceStep.runAll t ((ip.actions a).plan n r').1).2 = some .stackUnderflow ↔
      t.depth < n * ip.restores a
  /-- A walk that succeeds ends with the poses the word saves, less those it restores. -/
  depth_of_ok : (ip.interpretFrom w start r).2.2 = none →
    (ip.interpretFrom w start r).1.depth + (w.map ip.restores).sum = (w.map ip.saves).sum
  /-- Every prefix of the trace, whether the walk succeeds or not, is the trace at a point of the
  walk, where the saved poses are its pushes less its pops. -/
  trace : ∀ p, p <+: (ip.interpretFrom w start r).1.events.toList →
    ∃ tk, ReflTransGen SpaceTurtle.StepsTo (.startingAt start) tk ∧
      ReflTransGen SpaceTurtle.StepsTo tk (ip.interpretFrom w start r).1 ∧
      tk.events.toList = p ∧ tk.depth + (p.map Event.closes).sum = (p.map Event.opens).sum

/-- A walk fails exactly when some prefix of its word restores a pose never saved, runs of equal
symbols notwithstanding; one that succeeds ends with the poses its word saves less those it
restores; and along the walk the trace never pops more than it pushed, the saved poses being the
difference at every point. -/
theorem interpretFrom_underflow (ip : SpaceInterpreter) (w : Word) (start : SpacePose) (r : Rng) :
    ip.Underflows w start r := by
  have hx := ip.saves_eq_zero_or_restores_eq_zero
  have hrun : ip.interpretFrom w start r =
      ip.walkRuns (.startingAt start) r (symbolRuns w) := rfl
  have hword := (symbolRuns_encoding w).expand
  have hsome (e : Nat) (h : Brackets.reach ip.saves ip.restores 0 w = some e) :
      (ip.interpretFrom w start r).2.2 = none ∧ (ip.interpretFrom w start r).1.depth = e := by
    rw [← hword] at h
    rw [hrun]
    exact walkRuns_of_reach_some h
  have hnone (h : Brackets.reach ip.saves ip.restores 0 w = none) :
      (ip.interpretFrom w start r).2.2 = some .stackUnderflow := by
    rw [← hword] at h
    rw [hrun]
    exact walkRuns_of_reach_none h
  refine ⟨Brackets.underflow_iff_of_follows hsome hnone hx,
    Brackets.ok_or_underflow_of_follows hsome hnone, ip.runAll_plan_fails_iff,
    Brackets.depth_of_follows hsome hnone, fun p hp => ?_⟩
  -- the prefix is the trace at some point of the walk, where the trace accounts for the depth
  have hw := ip.reflTransGen_walkRuns (.startingAt start) r (symbolRuns w)
  rw [← hrun] at hw
  have hlen : p.length ≤ (ip.interpretFrom w start r).1.events.size := by
    simpa using hp.length_le
  obtain ⟨tk, h₁, h₂, hev⟩ :=
    SpaceTurtle.exists_between hw p.length (by simp [SpaceTurtle.startingAt]) hlen
  have htake := List.prefix_iff_eq_take.1 hp
  have hbal := (SpaceTurtle.traceBalanced_startingAt start).reflTransGen h₁
  rw [SpaceTurtle.TraceBalanced, hev, ← htake] at hbal
  refine ⟨tk, h₁, h₂, hev.trans htake.symm, ?_⟩
  simpa using Brackets.reach_eq_some hbal

end SpaceInterpreter

end Arbor
