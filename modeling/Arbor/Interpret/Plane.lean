import Arbor.Turtle.Plane
import Arbor.Grammar.Rule
/-!
# Drawing a word with a plane turtle

A plane interpreter binds an action to each symbol and walks a word one symbol at a time.
Each action first draws the random numbers it needs from the stream, then hands the turtle a
list of primitive steps (`PlaneAction.plan`); symbols bound to nothing are skipped. The walk
stops at the first step that fails, keeping everything drawn before it.

`PlaneInterpreter.standard` binds the usual symbols: `F` and `G` draw a step, `f` moves a step,
`+` and `-` turn by the configured angle either way, `|` turns around, `[` and `]` save and
restore the pose.
-/

namespace Arbor

/-- Step, turning angle and initial pen of a plane interpreter. -/
structure PlaneConfig where
  stepLength : Float32 := 10
  angleDegrees : Float32 := 45
  color : Color := Color.black

/-- What a symbol does to a plane turtle. -/
inductive PlaneAction
  | draw (distance : Float32)
  | move (distance : Float32)
  | rotate (deg : Float32)
  | push
  | pop
  /-- Save the pose, then turn. -/
  | pushRotate (deg : Float32)
  /-- Restore the pose, then turn. -/
  | popRotate (deg : Float32)
  | mark
  | setColor (c : Color)
  /-- Turn by a number drawn from `[lo, hi)`. -/
  | randomRotate (lo hi : Float32)
  /-- Draw a step of a length drawn from `[lo, hi)`. -/
  | randomDraw (lo hi : Float32)
  /-- Restore `n` times. -/
  | popTimes (n : Nat)
  | ignore

namespace PlaneAction

/-- The random numbers an action draws and the steps it then takes. -/
def plan : PlaneAction → Rng → List PlaneStep × Rng
  | .draw d, r => ([.draw d], r)
  | .move d, r => ([.advance d], r)
  | .rotate deg, r => ([.rotate deg], r)
  | .push, r => ([.push], r)
  | .pop, r => ([.pop], r)
  | .pushRotate deg, r => ([.push, .rotate deg], r)
  | .popRotate deg, r => ([.pop, .rotate deg], r)
  | .mark, r => ([.mark], r)
  | .setColor c, r => ([.setColor c], r)
  | .randomRotate lo hi, r => let (x, r) := r.uniformRange lo hi; ([.rotate x], r)
  | .randomDraw lo hi, r => let (x, r) := r.uniformRange lo hi; ([.draw x], r)
  | .popTimes n, r => ([.popTimes n], r)
  | .ignore, r => ([], r)

end PlaneAction

/-- Runs steps in order, stopping at the first that fails: the turtle and canvas reached, and
the fault if one stopped the run. -/
def PlaneStep.runAll :
    PlaneTurtle → Canvas → List PlaneStep → PlaneTurtle × Canvas × Option Fault
  | t, c, [] => (t, c, none)
  | t, c, s :: ss =>
    match s.run t c with
    | (t, c, none) => PlaneStep.runAll t c ss
    | stopped => stopped

/-- A plane turtle at work: the turtle, its canvas and the random stream. -/
structure PlaneWalk where
  turtle : PlaneTurtle
  canvas : Canvas
  rng : Rng

/-- A configuration and an action for each symbol. -/
structure PlaneInterpreter where
  config : PlaneConfig := {}
  actions : Symbol → PlaneAction := fun _ => .ignore

namespace PlaneInterpreter

/-- Binds an action to a symbol. -/
def setAction (ip : PlaneInterpreter) (s : Symbol) (a : PlaneAction) : PlaneInterpreter :=
  { ip with actions := fun x => if x = s then a else ip.actions x }

/-- Gives `target` the action `source` has now. -/
def copyAction (ip : PlaneInterpreter) (target source : Symbol) : PlaneInterpreter :=
  ip.setAction target (ip.actions source)

/-- Replaces all bindings: symbol `i` gets entry `i` of the list, the others nothing. -/
def withMap (ip : PlaneInterpreter) (map : List PlaneAction) : PlaneInterpreter :=
  { ip with actions := fun x => map.getD x.toNat .ignore }

/-- Binds the usual symbols with the configured step and angle. -/
def standard (ip : PlaneInterpreter) : PlaneInterpreter :=
  let step := ip.config.stepLength
  let angle := ip.config.angleDegrees
  [('F', PlaneAction.draw step), ('G', .draw step), ('f', .move step), ('+', .rotate angle),
    ('-', .rotate (-angle)), ('|', .rotate 180), ('[', .push), (']', .pop)].foldl
    (fun ip (c, a) => ip.setAction c.toNat.toUInt8 a) ip

/-- Walks the rest of a word; the result is where the walk ended and the fault that ended it
early, if any. -/
def walk (ip : PlaneInterpreter) : PlaneWalk → Word → PlaneWalk × Option Fault
  | w, [] => (w, none)
  | w, a :: rest =>
    let (steps, rng) := (ip.actions a).plan w.rng
    match PlaneStep.runAll w.turtle w.canvas steps with
    | (t, c, none) => ip.walk ⟨t, c, rng⟩ rest
    | (t, c, some e) => (⟨t, c, rng⟩, some e)

/-- Walks a word from `origin` with the given heading and the configured pen. -/
def interpret (ip : PlaneInterpreter) (word : Word) (origin : Vec2) (heading : Float32)
    (canvas : Canvas) (rng : Rng) : PlaneWalk × Option Fault :=
  ip.walk ⟨⟨⟨origin, heading, ip.config.color⟩, []⟩, canvas, rng⟩ word

end PlaneInterpreter

end Arbor
