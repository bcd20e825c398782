import Arbor.Proofs.Interpret.Underflow
/-!
# A push and its pop restore the turtle

A turtle saves its pose on a stack and restores it later. A run of steps is *balanced* when,
counted from nothing saved, no step restores a pose that the run did not save, and the run ends
with everything it saved restored (`PlaneStep.Balanced`, `SpaceOp.Balanced`; a repeated pop counts
as that many pops). Such a run leaves the poses saved before it where they were, so a push, a
balanced run and a pop give back the turtle as it was. With a pose left saved inside the run the
final pop restores that one instead (`unclosed_push_stays_saved`).

The space turtle also turns its pose about a local axis without recording it (`SpaceOp`). A run
does not read its trace, so a run started with a longer trace ends with that trace in front of
what it records (`SpaceOp.runAll_append_events`): the trace of push, run, pop is the old trace,
the push, what the run records on its own and the pop.

Main statements: steps that never restore more than they saved keep the saved poses below them
(`PlaneStep.runAll_above`, `SpaceOp.runAll_above`), and push, a balanced run and pop restore the
turtle (`PlaneStep.runAll_push_pop`, `SpaceOp.runAll_push_pop`).
-/

namespace Arbor

/-! ## Stacks above a base -/

section Above

variable {β : Type} {base saved : List β} {d : Nat}

/-- `saved` is `base` with `d` entries on top of it. -/
def StackAbove (base : List β) (d : Nat) (saved : List β) : Prop :=
  ∃ top, saved = top ++ base ∧ top.length = d

theorem stackAbove_refl (base : List β) : StackAbove base 0 base := ⟨[], rfl, rfl⟩

theorem stackAbove_zero_iff : StackAbove base 0 saved ↔ saved = base := by
  constructor
  · rintro ⟨top, rfl, htop⟩
    rw [List.length_eq_zero_iff.1 htop, List.nil_append]
  · rintro rfl
    exact stackAbove_refl _

theorem StackAbove.cons (h : StackAbove base d saved) (x : β) :
    StackAbove base (d + 1) (x :: saved) := by
  obtain ⟨top, rfl, rfl⟩ := h
  exact ⟨x :: top, rfl, rfl⟩

theorem StackAbove.drop (h : StackAbove base d saved) {n : Nat} (hn : n ≤ d) :
    StackAbove base (d - n) (saved.drop n) := by
  obtain ⟨top, rfl, rfl⟩ := h
  exact ⟨top.drop n, List.drop_append_of_le_length hn, List.length_drop⟩

theorem StackAbove.exists_cons (h : StackAbove base d saved) (hd : 0 < d) :
    ∃ x rest, saved = x :: rest ∧ StackAbove base (d - 1) rest := by
  obtain ⟨top, rfl, rfl⟩ := h
  cases top with
  | nil => simp at hd
  | cons x top => exact ⟨x, top ++ base, rfl, top, rfl, by simp⟩

end Above

/-! ## Plane turtles -/

namespace PlaneTurtle

theorem popTimes_saved (t : PlaneTurtle) {n : Nat} (h : n ≤ t.depth) :
    (t.popTimes n).1.saved = t.saved.drop n := by
  induction n generalizing t with
  | zero => rfl
  | succ n ih =>
    obtain ⟨pose, saved⟩ := t
    cases saved with
    | nil => simp [depth] at h
    | cons p rest => simpa [popTimes, pop] using ih ⟨p, rest⟩ (by simp [depth] at h ⊢; omega)

theorem pop_of_saved_eq_nil {t : PlaneTurtle} (h : t.saved = []) :
    t.pop = (t, some .stackUnderflow) := by
  obtain ⟨pose, saved⟩ := t
  subst h
  rfl

end PlaneTurtle

namespace PlaneStep

/-- The poses a step saves. -/
def opens : PlaneStep → Nat
  | .push => 1
  | _ => 0

/-- The poses a step restores. -/
def closes : PlaneStep → Nat
  | .pop => 1
  | .popTimes n => n
  | _ => 0

/-- Counted from nothing saved, no step restores a pose the steps did not save, and every pose
they save is restored. -/
def Balanced (w : List PlaneStep) : Prop := Brackets.reach opens closes 0 w = some 0

instance : DecidablePred Balanced := fun w =>
  inferInstanceAs (Decidable (Brackets.reach opens closes 0 w = some 0))

theorem run_above {s : PlaneStep} {t : PlaneTurtle} {base : List PlanePose} {d : Nat}
    (h : StackAbove base d t.saved) (hd : s.closes ≤ d) (c : Canvas) :
    (s.run t c).2.2 = none ∧ StackAbove base (d - s.closes + s.opens) (s.run t c).1.saved := by
  cases s with
  | push => exact ⟨rfl, h.cons t.pose⟩
  | pop =>
    obtain ⟨x, rest, hsaved, hrest⟩ := h.exists_cons hd
    obtain ⟨pose, saved⟩ := t
    subst hsaved
    exact ⟨rfl, hrest⟩
  | popTimes n =>
    have hn : n ≤ t.depth := by
      obtain ⟨top, hsaved, htop⟩ := h
      simp only [closes] at hd
      simp [PlaneTurtle.depth, hsaved, htop]
      omega
    have hok := (t.popTimes_of_le hn).1
    refine ⟨by simpa [run] using hok, ?_⟩
    simp only [run, closes, opens, Nat.add_zero]
    rw [t.popTimes_saved hn]
    exact h.drop hd
  | advance | draw | rotate | mark | setColor => exact ⟨rfl, h⟩

theorem runAll_cons_of_ok {s : PlaneStep} {t : PlaneTurtle} {c : Canvas}
    (h : (s.run t c).2.2 = none) (w : List PlaneStep) :
    runAll t c (s :: w) = runAll (s.run t c).1 (s.run t c).2.1 w := by
  rcases hrun : s.run t c with ⟨t', c', f⟩
  rw [hrun] at h
  subst h
  simp only [runAll, hrun]

/-- Steps that never restore more poses than were saved above the base succeed and keep the base,
with as many poses above it as the count reaches. -/
theorem runAll_above {w : List PlaneStep} {d e : Nat} (h : Brackets.reach opens closes d w = some e)
    {t : PlaneTurtle} {base : List PlanePose} (ht : StackAbove base d t.saved) (c : Canvas) :
    (runAll t c w).2.2 = none ∧ StackAbove base e (runAll t c w).1.saved := by
  induction w generalizing t c d with
  | nil =>
    rw [Brackets.reach_nil, Option.some.injEq] at h
    subst h
    exact ⟨rfl, ht⟩
  | cons s w ih =>
    rw [Brackets.reach_cons] at h
    split at h
    · rename_i hd
      obtain ⟨hok, habove⟩ := run_above ht hd c
      rw [runAll_cons_of_ok hok]
      exact ih h habove _
    · cases h

theorem runAll_append_of_ok {u : List PlaneStep} {t : PlaneTurtle} {c : Canvas}
    (h : (runAll t c u).2.2 = none) (v : List PlaneStep) :
    runAll t c (u ++ v) = runAll (runAll t c u).1 (runAll t c u).2.1 v := by
  induction u generalizing t c with
  | nil => rfl
  | cons s u ih =>
    rcases hrun : s.run t c with ⟨t', c', _ | f⟩
    · simp only [List.cons_append, runAll, hrun] at h ⊢
      exact ih h
    · simp [runAll, hrun] at h

theorem runAll_push_pop {w : List PlaneStep} (hw : Balanced w) (t : PlaneTurtle) (c : Canvas) :
    (runAll t c (PlaneStep.push :: w ++ [PlaneStep.pop])).1 = t ∧
      (runAll t c (PlaneStep.push :: w ++ [PlaneStep.pop])).2.2 = none := by
  -- after the push the run keeps the pushed pose on top of the poses saved before
  obtain ⟨hok, habove⟩ := runAll_above hw (stackAbove_refl (t.pose :: t.saved)) c (t := t.push)
  rw [stackAbove_zero_iff] at habove
  rw [List.cons_append, runAll_cons_of_ok rfl]
  change (runAll t.push c (w ++ [.pop])).1 = t ∧ (runAll t.push c (w ++ [.pop])).2.2 = none
  rw [runAll_append_of_ok hok]
  -- so the final pop restores the pushed pose and the poses below it
  generalize runAll t.push c w = r at habove
  obtain ⟨⟨pose, saved⟩, c', f⟩ := r
  subst habove
  exact ⟨rfl, rfl⟩

/-- A push left open inside the run is what the final pop restores: the run below is balanced in
its pops but not in its pushes, and one pose stays saved. -/
theorem unclosed_push_stays_saved :
    (runAll ⟨⟨⟨0, 0⟩, 0, Color.black⟩, []⟩ Canvas.empty
      (.push :: [.advance 1, .push] ++ [.pop])).1.saved ≠ [] := by
  simp [runAll, run, PlaneTurtle.push, PlaneTurtle.pop, PlaneTurtle.advance]

end PlaneStep

/-! ## Space turtles -/

theorem SpaceTurtle.pop_of_saved_eq_nil {t : SpaceTurtle} (h : t.saved = []) :
    t.pop = (t, some .stackUnderflow) := by
  obtain ⟨pose, saved, events⟩ := t
  subst h
  rfl

/-- An operation on a space turtle: one of its steps, or a turn of its pose about the local first
or third axis, by an angle in radians, that the trace does not record. -/
inductive SpaceOp
  | step (s : SpaceStep)
  | rotateLocalX (angle : Float32)
  | rotateLocalZ (angle : Float32)

namespace SpaceOp

/-- Performs one operation: the turtle after it, and the fault if it failed. -/
def run (t : SpaceTurtle) : SpaceOp → SpaceTurtle × Option Fault
  | .step s => s.run t
  | .rotateLocalX angle => ({ t with pose := t.pose.rotateLocalX angle }, none)
  | .rotateLocalZ angle => ({ t with pose := t.pose.rotateLocalZ angle }, none)

/-- Performs operations in order, stopping at the first that fails. -/
def runAll : SpaceTurtle → List SpaceOp → SpaceTurtle × Option Fault
  | t, [] => (t, none)
  | t, op :: ops =>
    match op.run t with
    | (t, none) => runAll t ops
    | stopped => stopped

/-- The poses an operation saves. -/
def opens : SpaceOp → Nat
  | .step s => s.opens
  | _ => 0

/-- The poses an operation restores. -/
def closes : SpaceOp → Nat
  | .step s => s.closes
  | _ => 0

/-- Counted from nothing saved, no operation restores a pose the operations did not save, and
every pose they save is restored. -/
def Balanced (w : List SpaceOp) : Prop := Brackets.reach opens closes 0 w = some 0

instance : DecidablePred Balanced := fun w =>
  inferInstanceAs (Decidable (Brackets.reach opens closes 0 w = some 0))

theorem run_above {op : SpaceOp} {t : SpaceTurtle} {base : List SpacePose} {d : Nat}
    (h : StackAbove base d t.saved) (hd : op.closes ≤ d) :
    (op.run t).2 = none ∧ StackAbove base (d - op.closes + op.opens) (op.run t).1.saved := by
  cases op with
  | step s =>
    obtain ⟨pose, saved, events⟩ := t
    cases s with
    | push => exact ⟨rfl, h.cons pose⟩
    | pop =>
      obtain ⟨x, rest, hsaved, hrest⟩ := h.exists_cons hd
      subst hsaved
      exact ⟨rfl, hrest⟩
    | move | rotate => exact ⟨rfl, h⟩
  | rotateLocalX | rotateLocalZ => exact ⟨rfl, h⟩

theorem runAll_cons_of_ok {op : SpaceOp} {t : SpaceTurtle} (h : (op.run t).2 = none)
    (ops : List SpaceOp) : runAll t (op :: ops) = runAll (op.run t).1 ops := by
  rcases hrun : op.run t with ⟨t', f⟩
  rw [hrun] at h
  subst h
  simp only [runAll, hrun]

theorem runAll_above {w : List SpaceOp} {d e : Nat} (h : Brackets.reach opens closes d w = some e)
    {t : SpaceTurtle} {base : List SpacePose} (ht : StackAbove base d t.saved) :
    (runAll t w).2 = none ∧ StackAbove base e (runAll t w).1.saved := by
  induction w generalizing t d with
  | nil =>
    rw [Brackets.reach_nil, Option.some.injEq] at h
    subst h
    exact ⟨rfl, ht⟩
  | cons op w ih =>
    rw [Brackets.reach_cons] at h
    split at h
    · rename_i hd
      obtain ⟨hok, habove⟩ := run_above ht hd
      rw [runAll_cons_of_ok hok]
      exact ih h habove
    · cases h

theorem runAll_append_of_ok {u : List SpaceOp} {t : SpaceTurtle} (h : (runAll t u).2 = none)
    (v : List SpaceOp) : runAll t (u ++ v) = runAll (runAll t u).1 v := by
  induction u generalizing t with
  | nil => rfl
  | cons op u ih =>
    rcases hrun : op.run t with ⟨t', _ | f⟩
    · simp only [List.cons_append, runAll, hrun] at h ⊢
      exact ih h
    · simp [runAll, hrun] at h

/-- An operation does not read the trace: started with `es` in front of it, it ends with `es` in
front of what it leaves. -/
theorem run_append_events (op : SpaceOp) (t : SpaceTurtle) (es : Array Event) :
    op.run { t with events := es ++ t.events } =
      ({ (op.run t).1 with events := es ++ (op.run t).1.events }, (op.run t).2) := by
  obtain ⟨pose, saved, events⟩ := t
  cases op with
  | step s =>
    cases s with
    | pop => cases saved <;> simp [run, SpaceStep.run, SpaceTurtle.pop]
    | move | rotate | push => simp [run, SpaceStep.run, SpaceTurtle.moveForward,
        SpaceTurtle.rotate, SpaceTurtle.push]
  | rotateLocalX | rotateLocalZ => rfl

theorem runAll_append_events (t : SpaceTurtle) (es : Array Event) (ops : List SpaceOp) :
    runAll { t with events := es ++ t.events } ops =
      ({ (runAll t ops).1 with events := es ++ (runAll t ops).1.events }, (runAll t ops).2) := by
  induction ops generalizing t with
  | nil => rfl
  | cons op ops ih =>
    rcases hrun : op.run t with ⟨t', _ | f⟩
    · simp only [runAll, run_append_events, hrun]
      exact ih t'
    · simp only [runAll, run_append_events, hrun]

/-- A push, a balanced run and a pop give back the pose and the saved poses, and the trace grows
by the push, what the run records on its own from the pushed turtle, and the pop. -/
theorem runAll_push_pop {w : List SpaceOp} (hw : Balanced w) (t : SpaceTurtle) :
    (runAll t (SpaceOp.step .push :: w ++ [SpaceOp.step .pop])).2 = none ∧
      (runAll t (SpaceOp.step .push :: w ++ [SpaceOp.step .pop])).1.pose = t.pose ∧
      (runAll t (SpaceOp.step .push :: w ++ [SpaceOp.step .pop])).1.saved = t.saved ∧
      (runAll t (SpaceOp.step .push :: w ++ [SpaceOp.step .pop])).1.events =
        (t.events.push .push ++
          (runAll ⟨t.pose, t.pose :: t.saved, #[]⟩ w).1.events).push .pop := by
  obtain ⟨pose, saved, events⟩ := t
  obtain ⟨hok, habove⟩ :=
    runAll_above hw (stackAbove_refl (pose :: saved)) (t := ⟨pose, pose :: saved, #[]⟩)
  rw [stackAbove_zero_iff] at habove
  have hframe := runAll_append_events ⟨pose, pose :: saved, #[]⟩ (events.push .push) w
  rw [Array.append_empty] at hframe
  have hok' : (runAll ⟨pose, pose :: saved, events.push .push⟩ w).2 = none := by
    rw [hframe]
    exact hok
  have hpush : ((SpaceOp.step .push).run ⟨pose, saved, events⟩).1 =
      ⟨pose, pose :: saved, events.push .push⟩ := rfl
  rw [List.cons_append, runAll_cons_of_ok rfl, hpush, runAll_append_of_ok hok', hframe]
  generalize runAll ⟨pose, pose :: saved, #[]⟩ w = r at habove ⊢
  obtain ⟨⟨pose', saved', events'⟩, f⟩ := r
  subst habove
  exact ⟨rfl, rfl, rfl, rfl⟩

end SpaceOp

/-- A push, a balanced run and a pop restore a turtle: the plane turtle whole, and the space
turtle's pose and saved poses, its trace growing by the push, what the run records and the pop,
in order. A pop with nothing saved fails and changes nothing. -/
theorem push_pop_restores_turtle :
    (∀ (t : PlaneTurtle) (c : Canvas) (w : List PlaneStep), PlaneStep.Balanced w →
      (PlaneStep.runAll t c (PlaneStep.push :: w ++ [PlaneStep.pop])).1 = t ∧
        (PlaneStep.runAll t c (PlaneStep.push :: w ++ [PlaneStep.pop])).2.2 = none) ∧
    (∀ t : PlaneTurtle, t.saved = [] → t.pop = (t, some .stackUnderflow)) ∧
    (∀ (t : SpaceTurtle) (w : List SpaceOp), SpaceOp.Balanced w →
      (SpaceOp.runAll t (SpaceOp.step .push :: w ++ [SpaceOp.step .pop])).2 = none ∧
        (SpaceOp.runAll t (SpaceOp.step .push :: w ++ [SpaceOp.step .pop])).1.pose = t.pose ∧
        (SpaceOp.runAll t (SpaceOp.step .push :: w ++ [SpaceOp.step .pop])).1.saved = t.saved ∧
        (SpaceOp.runAll t (SpaceOp.step .push :: w ++ [SpaceOp.step .pop])).1.events =
          (t.events.push .push ++
            (SpaceOp.runAll ⟨t.pose, t.pose :: t.saved, #[]⟩ w).1.events).push .pop) ∧
    (∀ t : SpaceTurtle, t.saved = [] → t.pop = (t, some .stackUnderflow)) :=
  ⟨fun t c _ hw => PlaneStep.runAll_push_pop hw t c, fun _ => PlaneTurtle.pop_of_saved_eq_nil,
    fun t _ hw => SpaceOp.runAll_push_pop hw t, fun _ => SpaceTurtle.pop_of_saved_eq_nil⟩

/-- A save around a branch that saves and restores once more and changes the pen on the way back:
the plane turtle comes back as it was, and the space turtle to its pose. -/
theorem push_pop_restores_turtle_nested :
    PlaneStep.Balanced [.draw 1, .push, .rotate 90, .advance 2, .pop, .setColor Color.white] ∧
    (PlaneStep.runAll (PlaneTurtle.atOrigin ⟨0, 0⟩ 0) Canvas.empty
        [.push, .draw 1, .push, .rotate 90, .advance 2, .pop, .setColor Color.white, .pop]).1 =
      PlaneTurtle.atOrigin ⟨0, 0⟩ 0 ∧
    SpaceOp.Balanced [.step (.move 1), .rotateLocalX 0.5, .step .push, .step (.move 2), .step .pop] ∧
    (SpaceOp.runAll {} [.step .push, .step (.move 1), .rotateLocalX 0.5, .step .push,
        .step (.move 2), .step .pop, .step .pop]).1.pose = ({} : SpaceTurtle).pose :=
  ⟨by decide,
    (push_pop_restores_turtle.1 _ Canvas.empty
      [.draw 1, .push, .rotate 90, .advance 2, .pop, .setColor Color.white] (by decide)).1,
    by decide,
    (push_pop_restores_turtle.2.2.1 {}
      [.step (.move 1), .rotateLocalX 0.5, .step .push, .step (.move 2), .step .pop]
      (by decide)).2.1⟩

end Arbor
