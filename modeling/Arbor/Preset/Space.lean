import Arbor.Preset.Plane
import Arbor.Skeleton.Grow
/-!
# Space presets

`fractalPlant3d` is a stochastic plant: `0` rewrites to `1[0][0]0` when its draw falls below one
half and to `1[0]0` otherwise, and `1 → 11`. A run of `n` growth symbols moves `scale` times the
sum of `n` uniform draws; an opening bracket saves the pose and turns at random (yaw `180 · u`,
`u ∈ [0.1, 1)`, then pitch `45 · v`, `v ∈ [0.2, 1)`), a closing one restores it and turns with the
yaw mirrored.

`fractalTree3d` grows that plant at scale `0.1` into a skeleton whose branches shorten by a fifth
and thin by three tenths at each opening.
-/

namespace Arbor

/-- A grammar and the interpreter that walks its words. -/
structure SpacePreset where
  grammar : Grammar
  interpreter : SpaceInterpreter

namespace SpacePreset

/-- Expands `n` generations and grows a skeleton from the result with `b`, from one stream. -/
def skeleton (p : SpacePreset) (n : Nat) (r : Rng) (b : Builder) : Except Fault Skeleton × Rng :=
  match p.grammar.expand n r with
  | (.error e, r) => (.error e, r)
  | (.ok w, r) => p.interpreter.growSkeleton w r b

/-- The random turn made on entering a branch. -/
def openTurn : RandomTurn := ⟨180, 0.1, 1, 45, 0.2, 1⟩

/-- The random turn made on leaving a branch: the yaw mirrored. -/
def closeTurn : RandomTurn := ⟨-180, 0.1, 1, 45, 0.2, 1⟩

/-- The stochastic plant. -/
def fractalPlant3d (scale : Float32) : SpacePreset :=
  let g := (({ start := word "0" } : Grammar).setRule (sym '0')
    (.chance [(0.5, word "1[0][0]0")] (word "1[0]0"))).setRule (sym '1') (.fixed (word "11"))
  let ip : SpaceInterpreter := { config := { stepLength := scale } }
  let ip := ((ip.setAction (sym '0') (.grow scale)).setAction (sym '[') (.pushTurn openTurn))
    |>.setAction (sym ']') (.popTurn closeTurn)
  ⟨g, ip.copyAction (sym '1') (sym '0')⟩

/-- The plant at scale `0.1`, grown `n` generations with branch falloff `0.8` and `0.7`. -/
def fractalTree3d (r : Rng) (n : Nat) : Except Fault Skeleton × Rng :=
  (fractalPlant3d 0.1).skeleton n r { falloff := some ⟨0.8, 0.7⟩ }

end SpacePreset

end Arbor
