import Mathlib
import Arbor.Preset.Plane
import Arbor.Proofs.Interpret.Underflow
import Arbor.Proofs.Grammar.Generations
/-!
# What a plane walk draws

A plane interpreter touches its canvas only at symbols bound to a drawing step or a mark. For a
word whose symbols are bound to actions of the interpreter itself (`PlaneAction.isBuiltIn`: no
random turn, no random step, no repeated restore) and a walk that succeeds, the segments on the
canvas are, in the order of the word, one for each symbol bound to a drawing step, from where the
turtle stood before it to where it stood after, in the pen colour it had before it
(`PlaneInterpreter.segmentAt`); the marked points are where the turtle stood at the symbols bound
to a mark (`PlaneInterpreter.markAt`).

The pen colour is a colour state of its own (`PlaneAction.pen`): a new colour replaces the pen, a
save keeps a copy of the pen with the pose, and a restore takes the last copy back. The pen is the
configured colour until a symbol sets another, and the colour a restore brings back undoes every
colour set since the matching save.

The Koch curve has one drawing symbol, `F`, which its rule writes five times over, so generation
`n` draws `5 ^ n` segments.

Main statement: `PlaneInterpreter.plane_walk_draws`.
-/

namespace Arbor

namespace Canvas

variable (c : Canvas)

@[simp] theorem lines_drawLine (a b : Vec2) (color : Color) :
    (c.drawLine a b color).lines = c.lines.push ⟨a, b, color⟩ := by
  cases c
  rfl

@[simp] theorem points_drawLine (a b : Vec2) (color : Color) :
    (c.drawLine a b color).points = c.points := by
  cases c
  rfl

@[simp] theorem lines_markPoint (p : Vec2) : (c.markPoint p).lines = c.lines := by
  cases c
  rfl

@[simp] theorem points_markPoint (p : Vec2) : (c.markPoint p).points = c.points.push p := by
  cases c
  rfl

end Canvas

namespace PlaneAction

/-- An action of the interpreter itself: anything but a random turn, a random step or a repeated
restore. -/
def isBuiltIn : PlaneAction → Bool
  | .randomRotate _ _ | .randomDraw _ _ | .popTimes _ => false
  | _ => true

/-- The action draws a segment. -/
def isDraw : PlaneAction → Bool
  | .draw _ => true
  | _ => false

/-- The pen colour and the colours saved with the poses, after an action, read off the action
alone: a new colour replaces the pen, a save keeps a copy of the pen, and a restore takes the last
copy back. -/
def pen : Color × List Color → PlaneAction → Color × List Color
  | (_, saved), .setColor c => (c, saved)
  | (c, saved), .push | (c, saved), .pushRotate _ => (c, c :: saved)
  | (_, c :: saved), .pop | (_, c :: saved), .popRotate _ => (c, saved)
  | s, _ => s

end PlaneAction

/-- The pen colour after the actions `acts`, from the pen `init` with nothing saved. -/
def penColor (init : Color) (acts : List PlaneAction) : Color :=
  (acts.foldl PlaneAction.pen (init, [])).1

/-- The pen of a turtle and the pens saved with its poses. -/
def PlaneTurtle.pens (t : PlaneTurtle) : Color × List Color :=
  (t.pose.color, t.saved.map PlanePose.color)

namespace PlaneInterpreter

variable (ip : PlaneInterpreter)

/-- Where `interpret` starts: the turtle at `origin`, with the configured pen and nothing saved. -/
def start (origin : Vec2) (heading : Float32) (c : Canvas) (r : Rng) : PlaneWalk :=
  ⟨⟨⟨origin, heading, ip.config.color⟩, []⟩, c, r⟩

/-- The turtle after the first `i` symbols of `w`, walked from `st`. -/
def turtleAt (st : PlaneWalk) (w : Word) (i : Nat) : PlaneTurtle :=
  (ip.walk st (w.take i)).1.turtle

/-- The segment the symbol at `i` draws, if it is bound to a drawing step: from where the turtle
stands before it to where it stands after, in the pen colour before it. -/
def segmentAt (st : PlaneWalk) (w : Word) (i : Nat) : Option Segment :=
  match w[i]?.map ip.actions with
  | some (.draw _) =>
    some ⟨(ip.turtleAt st w i).pose.position, (ip.turtleAt st w (i + 1)).pose.position,
      (ip.turtleAt st w i).pose.color⟩
  | _ => none

/-- The point the symbol at `i` marks, if it is bound to a mark: where the turtle stands. -/
def markAt (st : PlaneWalk) (w : Word) (i : Nat) : Option Vec2 :=
  match w[i]?.map ip.actions with
  | some .mark => some (ip.turtleAt st w i).pose.position
  | _ => none

/-! ## One symbol -/

theorem canvas_walk_singleton {a : Symbol} (hb : (ip.actions a).isBuiltIn) (st : PlaneWalk) :
    (ip.walk st [a]).1.canvas =
      match ip.actions a with
      | .draw _ => st.canvas.drawLine st.turtle.pose.position
          (ip.walk st [a]).1.turtle.pose.position st.turtle.pose.color
      | .mark => st.canvas.markPoint st.turtle.pose.position
      | _ => st.canvas := by
  obtain ⟨⟨pose, saved⟩, c, r⟩ := st
  rw [walk_cons]
  cases h : ip.actions a with
  | pop | popRotate =>
    cases saved <;> simp [PlaneAction.plan, PlaneStep.runAll, PlaneStep.run, PlaneTurtle.pop, walk]
  | randomRotate | randomDraw | popTimes => simp [h, PlaneAction.isBuiltIn] at hb
  | _ => simp [PlaneAction.plan, PlaneStep.runAll, PlaneStep.run, walk, PlaneTurtle.advance,
      PlaneTurtle.ahead]

theorem pens_walk_singleton {a : Symbol} (hb : (ip.actions a).isBuiltIn) {st : PlaneWalk}
    (hok : (ip.walk st [a]).2 = none) :
    (ip.walk st [a]).1.turtle.pens = PlaneAction.pen st.turtle.pens (ip.actions a) := by
  obtain ⟨⟨pose, saved⟩, c, r⟩ := st
  rw [walk_cons] at hok ⊢
  cases h : ip.actions a with
  | pop | popRotate =>
    rw [h] at hok
    cases saved <;> simp_all [PlaneAction.plan, PlaneStep.runAll, PlaneStep.run,
      PlaneTurtle.pop, walk, PlaneAction.pen, PlaneTurtle.pens, PlaneTurtle.rotate]
  | randomRotate | randomDraw | popTimes => simp [h, PlaneAction.isBuiltIn] at hb
  | _ => simp [PlaneAction.plan, PlaneStep.runAll, PlaneStep.run, walk, PlaneAction.pen,
      PlaneTurtle.pens, PlaneTurtle.advance, PlaneTurtle.rotate, PlaneTurtle.push,
      PlaneTurtle.setColor]

theorem walk_ok_of_cons {st : PlaneWalk} {a : Symbol} {w : Word}
    (hok : (ip.walk st (a :: w)).2 = none) : (ip.walk st [a]).2 = none := by
  rw [walk_cons] at hok ⊢
  rcases hrun : PlaneStep.runAll st.turtle st.canvas ((ip.actions a).plan st.rng).1 with
    ⟨t, c, _ | f⟩
  · rfl
  · simp [hrun] at hok

theorem walk_cons_of_ok {st : PlaneWalk} {a : Symbol} (ha : (ip.walk st [a]).2 = none)
    (w : Word) : ip.walk st (a :: w) = ip.walk (ip.walk st [a]).1 w := by
  rw [← List.singleton_append, walk_append_of_ok ha]

theorem walk_ok_of_append {st : PlaneWalk} {u v : Word} (hok : (ip.walk st (u ++ v)).2 = none) :
    (ip.walk st u).2 = none := by
  induction u generalizing st with
  | nil => rfl
  | cons a u ih =>
    have ha := ip.walk_ok_of_cons hok
    rw [List.cons_append, ip.walk_cons_of_ok ha] at hok
    rw [ip.walk_cons_of_ok ha]
    exact ih hok

/-! ## Symbol by symbol -/

variable {ip}

theorem turtleAt_zero (st : PlaneWalk) (w : Word) : ip.turtleAt st w 0 = st.turtle := rfl

theorem turtleAt_succ_cons {st : PlaneWalk} {a : Symbol} (hok : (ip.walk st [a]).2 = none)
    (w : Word) (i : Nat) :
    ip.turtleAt st (a :: w) (i + 1) = ip.turtleAt (ip.walk st [a]).1 w i := by
  rw [turtleAt, turtleAt, List.take_succ_cons, ip.walk_cons_of_ok hok]

theorem segmentAt_succ_cons {st : PlaneWalk} {a : Symbol} (hok : (ip.walk st [a]).2 = none)
    (w : Word) (i : Nat) :
    ip.segmentAt st (a :: w) (i + 1) = ip.segmentAt (ip.walk st [a]).1 w i := by
  simp only [segmentAt, List.getElem?_cons_succ, turtleAt_succ_cons hok]

theorem markAt_succ_cons {st : PlaneWalk} {a : Symbol} (hok : (ip.walk st [a]).2 = none)
    (w : Word) (i : Nat) : ip.markAt st (a :: w) (i + 1) = ip.markAt (ip.walk st [a]).1 w i := by
  simp only [markAt, List.getElem?_cons_succ, turtleAt_succ_cons hok]

theorem lines_walk_singleton {a : Symbol} (hb : (ip.actions a).isBuiltIn) (st : PlaneWalk)
    (w : Word) : (ip.walk st [a]).1.canvas.lines.toList =
      st.canvas.lines.toList ++ (ip.segmentAt st (a :: w) 0).toList := by
  rw [ip.canvas_walk_singleton hb]
  simp only [segmentAt, List.getElem?_cons_zero, Option.map_some, turtleAt_zero]
  split <;> simp_all [turtleAt]

theorem points_walk_singleton {a : Symbol} (hb : (ip.actions a).isBuiltIn) (st : PlaneWalk)
    (w : Word) : (ip.walk st [a]).1.canvas.points.toList =
      st.canvas.points.toList ++ (ip.markAt st (a :: w) 0).toList := by
  rw [ip.canvas_walk_singleton hb]
  simp only [markAt, List.getElem?_cons_zero, Option.map_some, turtleAt_zero]
  split <;> simp_all

theorem filterMap_range_succ {β : Type} (f : Nat → Option β) (n : Nat) :
    (List.range (n + 1)).filterMap f =
      (f 0).toList ++ (List.range n).filterMap fun i => f (i + 1) := by
  rw [List.range_succ_eq_map, List.filterMap_cons, List.filterMap_map]
  cases f 0 <;> rfl

/-- Along a walk that succeeds, the canvas gains, in the order of the word, the segment of every
symbol bound to a drawing step and the point of every symbol bound to a mark. -/
theorem walk_canvas {w : Word} (hb : ∀ a ∈ w, (ip.actions a).isBuiltIn) {st : PlaneWalk}
    (hok : (ip.walk st w).2 = none) :
    (ip.walk st w).1.canvas.lines.toList =
        st.canvas.lines.toList ++ (List.range w.length).filterMap (ip.segmentAt st w) ∧
      (ip.walk st w).1.canvas.points.toList =
        st.canvas.points.toList ++ (List.range w.length).filterMap (ip.markAt st w) := by
  induction w generalizing st with
  | nil => exact ⟨by simp [walk], by simp [walk]⟩
  | cons a w ih =>
    have ha := ip.walk_ok_of_cons hok
    rw [ip.walk_cons_of_ok ha] at hok ⊢
    obtain ⟨hlines, hpoints⟩ := ih (fun b hb' => hb b (List.mem_cons_of_mem a hb')) hok
    have hb₁ := hb a List.mem_cons_self
    rw [hlines, hpoints, lines_walk_singleton hb₁ st w, points_walk_singleton hb₁ st w,
      List.length_cons, filterMap_range_succ, filterMap_range_succ]
    simp only [segmentAt_succ_cons ha, markAt_succ_cons ha, List.append_assoc, and_self]

theorem pens_walk {w : Word} (hb : ∀ a ∈ w, (ip.actions a).isBuiltIn) {st : PlaneWalk}
    (hok : (ip.walk st w).2 = none) :
    (ip.walk st w).1.turtle.pens = (w.map ip.actions).foldl PlaneAction.pen st.turtle.pens := by
  induction w generalizing st with
  | nil => rfl
  | cons a w ih =>
    have ha := ip.walk_ok_of_cons hok
    rw [ip.walk_cons_of_ok ha] at hok ⊢
    rw [ih (fun b hb' => hb b (List.mem_cons_of_mem a hb')) hok, List.map_cons, List.foldl_cons,
      ip.pens_walk_singleton (hb a List.mem_cons_self) ha]

theorem pen_of_ne_setColor {init : Color} {x : PlaneAction} (hx : ∀ col, x ≠ .setColor col)
    {saved : List Color} (hs : ∀ c ∈ saved, c = init) :
    (PlaneAction.pen (init, saved) x).1 = init ∧
      ∀ c ∈ (PlaneAction.pen (init, saved) x).2, c = init := by
  cases x with
  | setColor col => exact absurd rfl (hx col)
  | push | pushRotate => simpa [PlaneAction.pen] using hs
  | pop | popRotate =>
    cases saved with
    | nil => simp [PlaneAction.pen]
    | cons c rest =>
      simp only [List.mem_cons, forall_eq_or_imp] at hs
      exact ⟨hs.1, hs.2⟩
  | _ => exact ⟨rfl, hs⟩

theorem foldl_pen_of_no_setColor {init : Color} {acts : List PlaneAction}
    (h : ∀ x ∈ acts, ∀ col, x ≠ .setColor col) {saved : List Color}
    (hs : ∀ c ∈ saved, c = init) :
    (acts.foldl PlaneAction.pen (init, saved)).1 = init ∧
      ∀ c ∈ (acts.foldl PlaneAction.pen (init, saved)).2, c = init := by
  induction acts generalizing saved with
  | nil => exact ⟨rfl, hs⟩
  | cons x acts ih =>
    obtain ⟨h₁, h₂⟩ := pen_of_ne_setColor (h x List.mem_cons_self) hs
    rw [List.foldl_cons, ← Prod.mk.eta (p := PlaneAction.pen (init, saved) x), h₁]
    exact ih (fun y hy => h y (List.mem_cons_of_mem x hy)) h₂

/-! ## Whole walks -/

/-- What a walk from a fresh turtle that succeeds leaves on the canvas, and in which pen. -/
structure Sketches (ip : PlaneInterpreter) (w : Word) (origin : Vec2) (heading : Float32)
    (c : Canvas) (r : Rng) : Prop where
  /-- The lines are those already there, then the segment of every symbol bound to a drawing
  step, in the order of the word. -/
  lines : (ip.interpret w origin heading c r).1.canvas.lines.toList =
    c.lines.toList ++ (List.range w.length).filterMap (ip.segmentAt (ip.start origin heading c r) w)
  /-- The points are those already there, then the point of every symbol bound to a mark. -/
  points : (ip.interpret w origin heading c r).1.canvas.points.toList =
    c.points.toList ++ (List.range w.length).filterMap (ip.markAt (ip.start origin heading c r) w)
  /-- After `i` symbols the pen is the configured colour as the actions of those symbols leave
  it: the latest colour set, unless a restore took back the one saved before it. -/
  pen : ∀ i ≤ w.length, (ip.turtleAt (ip.start origin heading c r) w i).pose.color =
    penColor ip.config.color ((w.take i).map ip.actions)
  /-- With no symbol bound to a colour, every segment drawn is in the configured colour. -/
  uniform : (∀ a ∈ w, ∀ col, ip.actions a ≠ .setColor col) →
    ∀ s ∈ (List.range w.length).filterMap (ip.segmentAt (ip.start origin heading c r) w),
      s.color = ip.config.color

theorem interpret_sketches (ip : PlaneInterpreter) {w : Word} (origin : Vec2) (heading : Float32)
    (c : Canvas) (r : Rng) (hb : ∀ a ∈ w, (ip.actions a).isBuiltIn)
    (hok : (ip.interpret w origin heading c r).2 = none) : ip.Sketches w origin heading c r := by
  have hcanvas := walk_canvas hb hok
  have hpen : ∀ i ≤ w.length, (ip.turtleAt (ip.start origin heading c r) w i).pose.color =
      penColor ip.config.color ((w.take i).map ip.actions) := by
    intro i _
    have hpre : (ip.walk (ip.start origin heading c r) (w.take i)).2 = none :=
      ip.walk_ok_of_append (v := w.drop i) (by rw [List.take_append_drop]; exact hok)
    have h := pens_walk (fun a ha => hb a (List.mem_of_mem_take ha)) hpre
    exact congrArg Prod.fst h
  refine ⟨hcanvas.1, hcanvas.2, hpen, fun hcol s hs => ?_⟩
  -- a segment is in the pen colour before its symbol, which is still the configured one
  obtain ⟨i, hi, hseg⟩ := List.mem_filterMap.1 hs
  have hi : i ≤ w.length := Nat.le_of_lt (List.mem_range.1 hi)
  have hcolor : s.color = (ip.turtleAt (ip.start origin heading c r) w i).pose.color := by
    unfold segmentAt at hseg
    split at hseg
    · cases hseg
      rfl
    · cases hseg
  rw [hcolor, hpen i hi]
  refine (foldl_pen_of_no_setColor ?_ (fun _ h => by simp at h)).1
  intro x hx col hxc
  obtain ⟨a, ha, rfl⟩ := List.mem_map.1 hx
  exact hcol a (List.mem_of_mem_take ha) col hxc

/-! ## Counting segments -/

theorem length_toList_segmentAt_zero (st : PlaneWalk) (a : Symbol) (w : Word) :
    (ip.segmentAt st (a :: w) 0).toList.length = if (ip.actions a).isDraw then 1 else 0 := by
  simp only [segmentAt, List.getElem?_cons_zero, Option.map_some]
  cases ip.actions a <;> rfl

theorem size_lines_walk {w : Word} (hb : ∀ a ∈ w, (ip.actions a).isBuiltIn) {st : PlaneWalk}
    (hok : (ip.walk st w).2 = none) :
    (ip.walk st w).1.canvas.lines.size =
      st.canvas.lines.size + w.countP fun a => (ip.actions a).isDraw := by
  induction w generalizing st with
  | nil => simp [walk]
  | cons a w ih =>
    have ha := ip.walk_ok_of_cons hok
    rw [ip.walk_cons_of_ok ha] at hok ⊢
    have hfirst := congrArg List.length (lines_walk_singleton (hb a List.mem_cons_self) st w)
    rw [Array.length_toList, List.length_append, Array.length_toList,
      length_toList_segmentAt_zero] at hfirst
    rw [ih (fun b hb' => hb b (List.mem_cons_of_mem a hb')) hok, hfirst, List.countP_cons]
    omega

theorem walk_ok_of_restores_eq_zero {w : Word} (h : ∀ a ∈ w, ip.restores a = 0)
    (st : PlaneWalk) : (ip.walk st w).2 = none := by
  induction w generalizing st with
  | nil => rfl
  | cons a w ih =>
    have hle : ip.restores a ≤ st.turtle.depth := by
      rw [h a List.mem_cons_self]
      exact Nat.zero_le _
    obtain ⟨st', -, hwalk⟩ := walk_cons_of_le hle w
    rw [hwalk]
    exact ih (fun b hb => h b (List.mem_cons_of_mem a hb)) st'

end PlaneInterpreter

/-! ## The Koch curve -/

namespace PlanePreset

variable (scale : Float32)

theorem kochCurve_rules (x : Symbol) :
    (kochCurve scale).grammar.rules x =
      if x = sym 'F' then some (.fixed (word "F+F-F-F+F")) else none := rfl

theorem kochCurve_actions (x : Symbol) :
    (kochCurve scale).interpreter.actions x =
      if x = sym '-' then .rotate (-90)
      else if x = sym '+' then .rotate 90
      else if x = sym 'F' then .draw scale
      else .ignore := rfl

theorem kochCurve_isDraw (x : Symbol) :
    ((kochCurve scale).interpreter.actions x).isDraw = (x == sym 'F') := by
  rw [kochCurve_actions]
  split_ifs with h1 h2 h3
  · subst h1
    decide
  · subst h2
    decide
  · subst h3
    simp [PlaneAction.isDraw]
  · simp [PlaneAction.isDraw, h3]

theorem rewrite_kochCurve (a : Symbol) (r : Rng) :
    (kochCurve scale).grammar.rewrite a r = (if a = sym 'F' then word "F+F-F-F+F" else [a], r) := by
  unfold Grammar.rewrite
  rw [kochCurve_rules]
  split_ifs <;> rfl

theorem count_step_kochCurve (w : Word) (r : Rng) :
    ((kochCurve scale).grammar.step w r).1.count (sym 'F') = 5 * w.count (sym 'F') := by
  induction w generalizing r with
  | nil => rfl
  | cons a w ih =>
    rw [Grammar.step_cons, rewrite_kochCurve, List.count_append, ih, List.count_cons]
    by_cases ha : a = sym 'F'
    · have h5 : (word "F+F-F-F+F").count (sym 'F') = 5 := by decide
      simp only [ha, if_true, h5, beq_self_eq_true]
      omega
    · simp [ha]

theorem count_iterate_kochCurve (n : Nat) (w : Word) (r : Rng) :
    ((kochCurve scale).grammar.iterate n w r).1.count (sym 'F') = 5 ^ n * w.count (sym 'F') := by
  induction n generalizing w r with
  | zero => simp [Grammar.iterate]
  | succ n ih => rw [Grammar.iterate_succ, ih, count_step_kochCurve, pow_succ, Nat.mul_assoc]

/-- Generation `n` of the Koch curve is drawn through, in `5 ^ n` segments. -/
theorem kochCurve_draws (n : Nat) (origin : Vec2) (heading : Float32) (c : Canvas) (r : Rng) :
    ((kochCurve scale).draw n origin heading c r).2 = none ∧
      ((kochCurve scale).draw n origin heading c r).1.canvas.lines.size = c.lines.size + 5 ^ n := by
  let ip := (kochCurve scale).interpreter
  let gen := (kochCurve scale).grammar.iterate n (kochCurve scale).grammar.start r
  have hdraw : (kochCurve scale).draw n origin heading c r =
      ip.walk (ip.start origin heading c gen.2) gen.1 := by
    unfold draw
    rw [Grammar.expand_of_maxLen_none rfl]
    rfl
  -- the table turns, draws at `F` and ignores the rest: nothing restores a pose
  have hb : ∀ a ∈ gen.1, (ip.actions a).isBuiltIn := by
    intro a _
    show ((kochCurve scale).interpreter.actions a).isBuiltIn
    rw [kochCurve_actions]
    split_ifs <;> rfl
  have hrest : ∀ a ∈ gen.1, ip.restores a = 0 := by
    intro a _
    show ((kochCurve scale).interpreter.actions a).closes = 0
    rw [kochCurve_actions]
    split_ifs <;> rfl
  have hok := PlaneInterpreter.walk_ok_of_restores_eq_zero hrest (ip.start origin heading c gen.2)
  have hdraws : (gen.1.countP fun a => (ip.actions a).isDraw) = gen.1.count (sym 'F') := by
    rw [List.count_eq_countP]
    exact List.countP_congr fun a _ => by rw [kochCurve_isDraw]
  have hstart : (kochCurve scale).grammar.start.count (sym 'F') = 1 := by
    show (word "F").count (sym 'F') = 1
    decide
  refine ⟨hdraw ▸ hok, ?_⟩
  rw [hdraw, PlaneInterpreter.size_lines_walk hb hok, hdraws, count_iterate_kochCurve, hstart,
    Nat.mul_one]
  rfl

end PlanePreset

namespace PlaneInterpreter

/-- A walk of the interpreter's own actions that succeeds leaves on the canvas, in the order of
the word, one segment for each symbol bound to a drawing step, from where the turtle stood before
it to where it stood after, in the pen colour before it, and one point for each symbol bound to a
mark; the pen is the configured colour as the colours set and the restores leave it. The Koch
curve draws `5 ^ n` segments at generation `n`. -/
theorem plane_walk_draws :
    (∀ (ip : PlaneInterpreter) (w : Word) (origin : Vec2) (heading : Float32) (c : Canvas)
      (r : Rng), (∀ a ∈ w, (ip.actions a).isBuiltIn) →
        (ip.interpret w origin heading c r).2 = none → ip.Sketches w origin heading c r) ∧
    ∀ (scale : Float32) (n : Nat) (origin : Vec2) (heading : Float32) (c : Canvas) (r : Rng),
      ((PlanePreset.kochCurve scale).draw n origin heading c r).2 = none ∧
        ((PlanePreset.kochCurve scale).draw n origin heading c r).1.canvas.lines.size =
          c.lines.size + 5 ^ n :=
  ⟨fun ip _ origin heading c r hb hok => interpret_sketches ip origin heading c r hb hok,
    PlanePreset.kochCurve_draws⟩

/-- The walk of `F+F` by the interpreter of the Koch curve, on an empty canvas. -/
theorem plane_walk_draws_koch_word :
    (∀ a ∈ word "F+F", ((PlanePreset.kochCurve 1).interpreter.actions a).isBuiltIn) ∧
      ((PlanePreset.kochCurve 1).interpreter.interpret (word "F+F") Vec2.zero 0 Canvas.empty
        (Rng.ofSeed 0)).2 = none ∧
      (PlanePreset.kochCurve 1).interpreter.Sketches (word "F+F") Vec2.zero 0 Canvas.empty
        (Rng.ofSeed 0) :=
  ⟨by decide +kernel, rfl, plane_walk_draws.1 _ _ _ _ _ _ (by decide +kernel) rfl⟩

end PlaneInterpreter

end Arbor
