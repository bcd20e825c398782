import Mathlib.Data.List.Chain
import Arbor.Interpret.Space
/-!
# Runs of equal symbols

`symbolRuns w` is the run-length encoding of `w` (`RunEncoding`): its counts are positive,
neighbouring runs hold different symbols, and the runs written out give `w` back. These three
facts pin the list down, so it is the only such list (`symbolRuns_eq_iff`).

A space interpreter dispatches each run once, with its count. For a turn, a save or a restore a
run of `n` copies is `n` copies of one step, and a symbol bound to nothing does nothing at all;
a table made only of such actions therefore walks a word exactly as dispatching its symbols one
at a time does, even when a run of restores fails partway (`interpretFrom_eq_interpretEach`).
A forward step is not of that kind: its run moves once, by the step times the count.

Main statement: `SpaceInterpreter.runs_dispatch`.
-/

namespace Arbor

/-! ## Run-length encodings -/

/-- The word a list of runs stands for: each run `(a, n)` written out as `n` copies of `a`. -/
def expandRuns (runs : List (Symbol × Nat)) : Word := runs.flatMap fun x => List.replicate x.2 x.1

@[simp] theorem expandRuns_nil : expandRuns [] = [] := rfl

@[simp] theorem expandRuns_cons (x : Symbol × Nat) (runs : List (Symbol × Nat)) :
    expandRuns (x :: runs) = List.replicate x.2 x.1 ++ expandRuns runs := rfl

/-- `runs` encodes `w` run by run: every count is positive, neighbouring runs hold different
symbols, and the runs written out give `w`. -/
structure RunEncoding (runs : List (Symbol × Nat)) (w : Word) : Prop where
  pos : ∀ x ∈ runs, 0 < x.2
  distinct : runs.IsChain fun x y => x.1 ≠ y.1
  expand : expandRuns runs = w

theorem runsFrom_acc (a : Symbol) (n : Nat) (acc : List (Symbol × Nat)) (w : Word) :
    runsFrom a n acc w = acc.reverse ++ runsFrom a n [] w := by
  induction w generalizing a n acc with
  | nil => simp [runsFrom]
  | cons b w ih =>
    unfold runsFrom
    split
    · exact ih a (n + 1) acc
    · rw [ih b 1 ((a, n) :: acc), ih b 1 [(a, n)]]
      simp

theorem runsFrom_replicate_append (a : Symbol) (n k : Nat) (w : Word) :
    runsFrom a n [] (List.replicate k a ++ w) = runsFrom a (n + k) [] w := by
  induction k generalizing n with
  | zero => rfl
  | succ k ih =>
    rw [List.replicate_succ, List.cons_append, runsFrom, if_pos rfl, ih, Nat.add_right_comm,
      Nat.add_assoc]

theorem runsFrom_cons_of_ne {a b : Symbol} (h : b ≠ a) (n : Nat) (w : Word) :
    runsFrom a n [] (b :: w) = (a, n) :: runsFrom b 1 [] w := by
  rw [runsFrom, if_neg h, runsFrom_acc]
  rfl

theorem exists_runsFrom (a : Symbol) (n : Nat) (w : Word) :
    ∃ m more, runsFrom a n [] w = (a, m) :: more := by
  induction w generalizing a n with
  | nil => exact ⟨n, [], rfl⟩
  | cons b w ih =>
    rw [runsFrom]
    split
    · exact ih a (n + 1)
    · rw [runsFrom_acc]
      exact ⟨n, _, rfl⟩

theorem runsFrom_encoding (a : Symbol) {n : Nat} (hn : 0 < n) (w : Word) :
    RunEncoding (runsFrom a n [] w) (List.replicate n a ++ w) := by
  induction w generalizing a n with
  | nil => exact ⟨by simp [runsFrom, hn], .singleton _, by simp [runsFrom]⟩
  | cons b w ih =>
    by_cases hb : b = a
    · -- the run of `a` grows by one
      subst hb
      have h := ih b (Nat.succ_pos n)
      rw [runsFrom, if_pos rfl]
      rwa [List.replicate_succ', List.append_assoc, List.singleton_append] at h
    · -- the run of `a` ends, with `b` the first symbol of the next
      obtain ⟨pos, distinct, expand⟩ := ih b Nat.one_pos
      obtain ⟨m, more, hmore⟩ := exists_runsFrom b 1 w
      rw [runsFrom_cons_of_ne hb]
      refine ⟨?_, ?_, ?_⟩
      · intro x hx
        rcases List.mem_cons.1 hx with rfl | hx
        · exact hn
        · exact pos x hx
      · rw [hmore] at distinct ⊢
        exact List.IsChain.cons_cons (Ne.symm hb) distinct
      · rw [expandRuns_cons, expand]
        rfl

theorem symbolRuns_encoding (w : Word) : RunEncoding (symbolRuns w) w := by
  cases w with
  | nil => exact ⟨by simp [symbolRuns], .nil, rfl⟩
  | cons a w => simpa [symbolRuns] using runsFrom_encoding a Nat.one_pos w

theorem runsFrom_expandRuns {a : Symbol} {n : Nat} {runs : List (Symbol × Nat)}
    (hpos : ∀ x ∈ runs, 0 < x.2) (hchain : ((a, n) :: runs).IsChain fun x y => x.1 ≠ y.1) :
    runsFrom a n [] (expandRuns runs) = (a, n) :: runs := by
  induction runs generalizing a n with
  | nil => rfl
  | cons x runs ih =>
    obtain ⟨b, m⟩ := x
    obtain ⟨hab, hchain⟩ := List.isChain_cons_cons.1 hchain
    have hab : a ≠ b := hab
    obtain ⟨k, rfl⟩ := Nat.exists_eq_add_one.2 (hpos (b, m) List.mem_cons_self)
    have hrest := ih (fun y hy => hpos y (List.mem_cons_of_mem _ hy)) hchain
    rw [expandRuns_cons, List.replicate_succ, List.cons_append, runsFrom_cons_of_ne (Ne.symm hab),
      runsFrom_replicate_append, Nat.add_comm 1 k, hrest]

theorem symbolRuns_eq_iff {w : Word} {runs : List (Symbol × Nat)} :
    symbolRuns w = runs ↔ RunEncoding runs w := by
  constructor
  · rintro rfl
    exact symbolRuns_encoding w
  · rintro ⟨hpos, hchain, rfl⟩
    cases runs with
    | nil => rfl
    | cons x runs =>
      obtain ⟨a, n⟩ := x
      obtain ⟨k, rfl⟩ := Nat.exists_eq_add_one.2 (hpos (a, n) List.mem_cons_self)
      rw [expandRuns_cons, List.replicate_succ, List.cons_append, symbolRuns,
        runsFrom_replicate_append, Nat.add_comm 1 k]
      exact runsFrom_expandRuns (fun y hy => hpos y (List.mem_cons_of_mem _ hy)) hchain

-- the unbound `x` still splits the zeros into two runs
example : symbolRuns [48, 48, 120, 48] = [(48, 2), (120, 1), (48, 1)] := by decide

/-! ## Dispatching runs -/

namespace SpaceStep

theorem runAll_append (t : SpaceTurtle) (u v : List SpaceStep) :
    runAll t (u ++ v) =
      match runAll t u with
      | (t', none) => runAll t' v
      | stopped => stopped := by
  induction u generalizing t with
  | nil => rfl
  | cons s u ih =>
    rw [List.cons_append, runAll, runAll]
    rcases s.run t with ⟨t₁, _ | f⟩
    · exact ih t₁
    · rfl

end SpaceStep

namespace SpaceAction

/-- A turn, a save, a restore or nothing: an action whose run of `n` copies is `n` copies of one
step, with no draw. -/
def isStepwise : SpaceAction → Bool
  | .rotate _ _ | .push | .pop | .ignore => true
  | _ => false

/-- What one copy of a stepwise action does. -/
def unitSteps : SpaceAction → List SpaceStep
  | .rotate y p => [.rotate y p]
  | .push => [.push]
  | .pop => [.pop]
  | _ => []

theorem plan_of_isStepwise {x : SpaceAction} (hx : x.isStepwise) (n : Nat) (r : Rng) :
    x.plan n r = ((List.replicate n x.unitSteps).flatten, r) := by
  cases x <;> simp_all [isStepwise, plan, unitSteps, List.flatten_replicate_singleton]

end SpaceAction

namespace SpaceInterpreter

variable (ip : SpaceInterpreter)

/-- Walks a word from `start` dispatching every symbol on its own, with count one. -/
def interpretEach (w : Word) (start : SpacePose) (r : Rng) : SpaceTurtle × Rng × Option Fault :=
  ip.walkRuns (SpaceTurtle.startingAt start) r (w.map fun a => (a, 1))

/-- The steps a word's stepwise actions take, one symbol after another. -/
def wordSteps (w : Word) : List SpaceStep := w.flatMap fun a => (ip.actions a).unitSteps

variable {ip}

/-- With stepwise actions only, walking runs is running their steps one after another: the
stream is never touched, and a failing step stops the walk where it stands. -/
theorem walkRuns_of_isStepwise (h : ∀ a, (ip.actions a).isStepwise) (t : SpaceTurtle) (r : Rng)
    (runs : List (Symbol × Nat)) :
    ip.walkRuns t r runs =
      ((SpaceStep.runAll t (ip.wordSteps (expandRuns runs))).1, r,
        (SpaceStep.runAll t (ip.wordSteps (expandRuns runs))).2) := by
  induction runs generalizing t with
  | nil => rfl
  | cons x runs ih =>
    obtain ⟨a, n⟩ := x
    simp only [walkRuns, expandRuns_cons, wordSteps, List.flatMap_append, List.flatMap_replicate,
      SpaceAction.plan_of_isStepwise (h a), SpaceStep.runAll_append]
    rcases SpaceStep.runAll t (List.replicate n (ip.actions a).unitSteps).flatten with
      ⟨t₁, _ | f⟩
    · exact ih t₁
    · rfl

theorem expandRuns_map_one (w : Word) : expandRuns (w.map fun a => (a, 1)) = w := by
  induction w with
  | nil => rfl
  | cons a w ih => simp [ih]

/-- With turns, saves, restores and nothing else bound, dispatching runs walks a word exactly as
dispatching its symbols one at a time: the same turtle, trace and stream, or the same fault. -/
theorem interpretFrom_eq_interpretEach (h : ∀ a, (ip.actions a).isStepwise) (w : Word)
    (start : SpacePose) (r : Rng) : ip.interpretFrom w start r = ip.interpretEach w start r := by
  rw [interpretFrom, interpretEach, walkRuns_of_isStepwise h, walkRuns_of_isStepwise h,
    (symbolRuns_encoding w).expand, expandRuns_map_one]

theorem walkRuns_cons_of_runAll {t t' : SpaceTurtle} {r : Rng} {a : Symbol} {n : Nat}
    (h : SpaceStep.runAll t ((ip.actions a).plan n r).1 = (t', none))
    (rest : List (Symbol × Nat)) :
    ip.walkRuns t r ((a, n) :: rest) = ip.walkRuns t' ((ip.actions a).plan n r).2 rest := by
  simp [walkRuns, h]

theorem walkRuns_ignore {a : Symbol} (ha : ip.actions a = .ignore) (t : SpaceTurtle) (r : Rng)
    (n : Nat) (rest : List (Symbol × Nat)) :
    ip.walkRuns t r ((a, n) :: rest) = ip.walkRuns t r rest := by
  rw [walkRuns_cons_of_runAll (by rw [ha]; rfl), ha]
  rfl

theorem walkRuns_forward {a : Symbol} {step : Float32} (ha : ip.actions a = .forward step)
    (t : SpaceTurtle) (r : Rng) (n : Nat) (rest : List (Symbol × Nat)) :
    ip.walkRuns t r ((a, n) :: rest) =
      ip.walkRuns (t.moveForward (step * Float32.ofNat n)) r rest := by
  rw [walkRuns_cons_of_runAll (by rw [ha]; rfl), ha]
  rfl

/-- How a space interpreter walks a word run by run. -/
structure RunDispatch (ip : SpaceInterpreter) : Prop where
  /-- The runs of a word encode it: positive counts, neighbours apart, written out to the word. -/
  encoding : ∀ w, RunEncoding (symbolRuns w) w
  /-- They are its only encoding. -/
  unique : ∀ w runs, RunEncoding runs w → runs = symbolRuns w
  /-- Only the empty word has no runs. -/
  nil_iff : ∀ w, symbolRuns w = [] ↔ w = []
  /-- A walk dispatches the runs of the encoding in order, each once with its count. -/
  dispatch : ∀ w start r runs, RunEncoding runs w →
    ip.interpretFrom w start r = ip.walkRuns (.startingAt start) r runs
  /-- A run of a symbol bound to nothing does nothing. -/
  skip : ∀ a, ip.actions a = .ignore → ∀ t r n rest,
    ip.walkRuns t r ((a, n) :: rest) = ip.walkRuns t r rest
  /-- With turns, saves, restores and nothing else bound, the walk is the walk of one symbol at
  a time, failure included. -/
  stepwise : (∀ a, (ip.actions a).isStepwise) → ∀ w start r,
    ip.interpretFrom w start r = ip.interpretEach w start r
  /-- A run of a symbol bound to a forward step moves once, by the step times the count, and
  records that one move. -/
  forward : ∀ a step, ip.actions a = .forward step → ∀ t r n rest,
    ip.walkRuns t r ((a, n) :: rest) =
        ip.walkRuns (t.moveForward (step * Float32.ofNat n)) r rest ∧
      (t.moveForward (step * Float32.ofNat n)).events =
        t.events.push
          (.move t.pose.position (t.pose.ahead (step * Float32.ofNat n)) t.pose.rotation)

/-- A space interpreter dispatches the maximal runs of equal symbols of a word, in order, each
once with its count, the unique run-length encoding of the word; for turns, saves and restores
that is the same as dispatching every symbol on its own, while a run of forward steps is one
move. -/
theorem runs_dispatch (ip : SpaceInterpreter) : ip.RunDispatch where
  encoding := symbolRuns_encoding
  unique w runs h := (symbolRuns_eq_iff.2 h).symm
  nil_iff w := by
    constructor
    · intro h
      rw [← (symbolRuns_encoding w).expand, h]
      rfl
    · rintro rfl
      rfl
  dispatch w start r runs h := by rw [interpretFrom, symbolRuns_eq_iff.2 h]
  skip _ ha := walkRuns_ignore ha
  stepwise h := interpretFrom_eq_interpretEach h
  forward _ _ ha t r n rest := ⟨walkRuns_forward ha t r n rest, rfl⟩

end SpaceInterpreter

end Arbor
