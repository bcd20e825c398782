import Arbor.Turtle.Space
import Arbor.Interpret.Runs
/-!
# Walking a word with a space turtle

A space interpreter binds an action to each symbol and walks a word one run of equal symbols at
a time: the action of a run of `n` copies is invoked once, with count `n`. Each action first
draws the random numbers it needs, then hands the turtle a list of primitive steps
(`SpaceAction.plan`); runs of symbols bound to nothing are skipped. The walk stops at the first
step that fails.

`SpaceInterpreter.standard` binds `F`, `G` and `f` to a forward step, `+` and `-` to a yaw either
way, `&` and `^` to a pitch either way, `|` to a half turn of pitch, and `[` and `]` to saving
and restoring the pose.
-/

namespace Arbor

/-- Step and turning angles of a space interpreter. -/
structure SpaceConfig where
  stepLength : Float32 := 0.1
  yawDegrees : Float32 := 45
  pitchDegrees : Float32 := 25

/-- A random turn: yaw `yawScale · u` for `u` drawn from `[yawLo, yawHi)`, then pitch
`pitchScale · v` for `v` drawn from `[pitchLo, pitchHi)`. -/
structure RandomTurn where
  yawScale : Float32
  yawLo : Float32
  yawHi : Float32
  pitchScale : Float32
  pitchLo : Float32
  pitchHi : Float32

/-- Draws the yaw, then the pitch, of a random turn. -/
def RandomTurn.draw (t : RandomTurn) (r : Rng) : (Float32 × Float32) × Rng :=
  let (u, r) := r.uniformRange t.yawLo t.yawHi
  let (v, r) := r.uniformRange t.pitchLo t.pitchHi
  ((t.yawScale * u, t.pitchScale * v), r)

/-- What a run of `n` copies of a symbol does to a space turtle. -/
inductive SpaceAction
  /-- One move of `step · n`. -/
  | forward (step : Float32)
  /-- `n` turns. -/
  | rotate (yaw pitch : Float32)
  /-- `n` saves. -/
  | push
  /-- `n` restores. -/
  | pop
  /-- One move of `scale · (u₁ + … + uₙ)`, each `uᵢ` uniform in `[0, 1)`. -/
  | grow (scale : Float32)
  /-- `n` yaws, each by a number drawn from `[lo, hi)`. -/
  | spin (lo hi : Float32)
  /-- One yaw of `n` degrees. -/
  | turnByCount
  /-- `n` times: save, then turn at random. -/
  | pushTurn (t : RandomTurn)
  /-- `n` times: restore, then turn at random. -/
  | popTurn (t : RandomTurn)
  | ignore

namespace SpaceAction

/-- The sum `u₁ + … + uₙ` of `n` uniform draws, added from the left. -/
def uniformSum : Nat → Float32 → Rng → Float32 × Rng
  | 0, acc, r => (acc, r)
  | n + 1, acc, r => let (u, r) := r.uniform; uniformSum n (acc + u) r

/-- `n` random turns, each after the step `before`. -/
def randomTurns (before : SpaceStep) (t : RandomTurn) : Nat → Rng → List SpaceStep × Rng
  | 0, r => ([], r)
  | n + 1, r =>
    let ((yaw, pitch), r) := t.draw r
    let (rest, r) := randomTurns before t n r
    (before :: .rotate yaw pitch :: rest, r)

/-- `n` yaws drawn from `[lo, hi)`. -/
def spins (lo hi : Float32) : Nat → Rng → List SpaceStep × Rng
  | 0, r => ([], r)
  | n + 1, r =>
    let (x, r) := r.uniformRange lo hi
    let (rest, r) := spins lo hi n r
    (.rotate x 0 :: rest, r)

/-- The random numbers a run of `n` draws and the steps it then takes. -/
def plan : SpaceAction → Nat → Rng → List SpaceStep × Rng
  | .forward step, n, r => ([.move (step * Float32.ofNat n)], r)
  | .rotate y p, n, r => (List.replicate n (.rotate y p), r)
  | .push, n, r => (List.replicate n .push, r)
  | .pop, n, r => (List.replicate n .pop, r)
  | .grow scale, n, r => let (s, r) := uniformSum n (-0) r; ([.move (scale * s)], r)
  | .spin lo hi, n, r => spins lo hi n r
  | .turnByCount, n, r => ([.rotate (Float32.ofNat n) 0], r)
  | .pushTurn t, n, r => randomTurns .push t n r
  | .popTurn t, n, r => randomTurns .pop t n r
  | .ignore, _, r => ([], r)

end SpaceAction

/-- Runs steps in order, stopping at the first that fails. -/
def SpaceStep.runAll : SpaceTurtle → List SpaceStep → SpaceTurtle × Option Fault
  | t, [] => (t, none)
  | t, s :: ss =>
    match s.run t with
    | (t, none) => SpaceStep.runAll t ss
    | stopped => stopped

/-- A configuration and an action for each symbol. -/
structure SpaceInterpreter where
  config : SpaceConfig := {}
  actions : Symbol → SpaceAction := fun _ => .ignore

namespace SpaceInterpreter

/-- Binds an action to a symbol. -/
def setAction (ip : SpaceInterpreter) (s : Symbol) (a : SpaceAction) : SpaceInterpreter :=
  { ip with actions := fun x => if x = s then a else ip.actions x }

/-- Gives `target` the action `source` has now. -/
def copyAction (ip : SpaceInterpreter) (target source : Symbol) : SpaceInterpreter :=
  ip.setAction target (ip.actions source)

/-- Replaces all bindings: symbol `i` gets entry `i` of the list, the others nothing. -/
def withMap (ip : SpaceInterpreter) (map : List SpaceAction) : SpaceInterpreter :=
  { ip with actions := fun x => map.getD x.toNat .ignore }

/-- Binds the usual symbols with the configured step and angles. -/
def standard (ip : SpaceInterpreter) : SpaceInterpreter :=
  let step := ip.config.stepLength
  let yaw := ip.config.yawDegrees
  let pitch := ip.config.pitchDegrees
  [('F', SpaceAction.forward step), ('G', .forward step), ('f', .forward step),
    ('+', .rotate yaw 0), ('-', .rotate (-yaw) 0), ('&', .rotate 0 pitch),
    ('^', .rotate 0 (-pitch)), ('|', .rotate 0 180), ('[', .push), (']', .pop)].foldl
    (fun ip (c, a) => ip.setAction c.toNat.toUInt8 a) ip

/-- Walks runs of symbols; the result is where the walk ended, the stream, and the fault that
ended it early, if any. -/
def walkRuns (ip : SpaceInterpreter) :
    SpaceTurtle → Rng → List (Symbol × Nat) → SpaceTurtle × Rng × Option Fault
  | t, r, [] => (t, r, none)
  | t, r, (a, n) :: rest =>
    let (steps, r) := (ip.actions a).plan n r
    match SpaceStep.runAll t steps with
    | (t, none) => ip.walkRuns t r rest
    | (t, some e) => (t, r, some e)

/-- Walks a word from `start`, one dispatch per run of equal symbols. -/
def interpretFrom (ip : SpaceInterpreter) (word : Word) (start : SpacePose) (r : Rng) :
    SpaceTurtle × Rng × Option Fault :=
  ip.walkRuns (SpaceTurtle.startingAt start) r (symbolRuns word)

end SpaceInterpreter

end Arbor
