import Arbor.Grammar.Expand
import Arbor.Interpret.Plane
/-!
# Plane presets

Classic plane L-systems, each a grammar with the interpreter that draws it at a given scale:

* `fractalTree`: `0 → 1[0]0`, `1 → 11`; both draw, brackets save and turn by 45° either way;
* `kochCurve`: `F → F+F-F-F+F` with right-angle turns;
* `sierpinskiTriangle`: start `F-G-G`, `F → F-G+F+G-F`, `G → GG`, turns of 120°;
* `dragonCurve`: start `FX`, `X → X+YF+`, `Y → -FX-Y`, right-angle turns;
* `fractalPlant`: start `X`, `X → F+[[X]-X]-F[-FX]+X`, `F → FF`, turns of 25°;
* `fractalLeaf`: start `o0`, `0 → 1[-0][+0]1e`, `1 → 11`, `e` rewriting like `0`; the base `o`
  and every tip `e` are marked on the canvas.

`PlanePreset.draw` expands the start word and draws the result, both from one stream.
-/

namespace Arbor

/-- A grammar and the interpreter that draws its words. -/
structure PlanePreset where
  grammar : Grammar
  interpreter : PlaneInterpreter

/-- The symbol of a character. -/
def sym (c : Char) : Symbol := c.toNat.toUInt8

/-- The word of a text. -/
def word (s : String) : Word := s.toList.map sym

namespace PlanePreset

/-- Expands `n` generations and draws the result from `origin` with the given heading. -/
def draw (p : PlanePreset) (n : Nat) (origin : Vec2) (heading : Float32) (canvas : Canvas)
    (r : Rng) : PlaneWalk × Option Fault :=
  match p.grammar.expand n r with
  | (.error e, r) =>
    (⟨⟨⟨origin, heading, p.interpreter.config.color⟩, []⟩, canvas, r⟩, some e)
  | (.ok w, r) => p.interpreter.interpret w origin heading canvas r

/-- An interpreter whose step is `scale`, otherwise with the default configuration. -/
def scaled (scale : Float32) : PlaneInterpreter := { config := { stepLength := scale } }

/-- The binary tree. -/
def fractalTree (scale : Float32) : PlanePreset :=
  ⟨(({ start := word "0" } : Grammar).setRule (sym '0') (.fixed (word "1[0]0"))).setRule (sym '1')
      (.fixed (word "11")),
    (((scaled scale).setAction (sym '0') (.draw scale)).setAction (sym '[') (.pushRotate 45)
      |>.setAction (sym ']') (.popRotate (-45))).copyAction (sym '1') (sym '0')⟩

/-- The quadratic Koch curve. -/
def kochCurve (scale : Float32) : PlanePreset :=
  ⟨({ start := word "F" } : Grammar).setRule (sym 'F') (.fixed (word "F+F-F-F+F")),
    (((scaled scale).setAction (sym 'F') (.draw scale)).setAction (sym '+') (.rotate 90))
      |>.setAction (sym '-') (.rotate (-90))⟩

/-- The Sierpinski triangle. -/
def sierpinskiTriangle (scale : Float32) : PlanePreset :=
  ⟨(({ start := word "F-G-G" } : Grammar).setRule (sym 'F') (.fixed (word "F-G+F+G-F"))).setRule
      (sym 'G') (.fixed (word "GG")),
    ((((scaled scale).setAction (sym 'F') (.draw scale)).setAction (sym '+') (.rotate 120))
      |>.setAction (sym '-') (.rotate (-120))).copyAction (sym 'G') (sym 'F')⟩

/-- The Heighway dragon. -/
def dragonCurve (scale : Float32) : PlanePreset :=
  ⟨(({ start := word "FX" } : Grammar).setRule (sym 'X') (.fixed (word "X+YF+"))).setRule (sym 'Y')
      (.fixed (word "-FX-Y")),
    (((scaled scale).setAction (sym 'F') (.draw scale)).setAction (sym '+') (.rotate (-90)))
      |>.setAction (sym '-') (.rotate 90)⟩

/-- The fern-like plant. -/
def fractalPlant (scale : Float32) : PlanePreset :=
  ⟨(({ start := word "X" } : Grammar).setRule (sym 'X') (.fixed (word "F+[[X]-X]-F[-FX]+X")))
      |>.setRule (sym 'F') (.fixed (word "FF")),
    (((((scaled scale).setAction (sym 'F') (.draw scale)).setAction (sym '+') (.rotate (-25)))
      |>.setAction (sym '-') (.rotate 25)).setAction (sym '[') .push).setAction (sym ']') .pop⟩

/-- The leaf outline, drawn with the given pen. -/
def fractalLeaf (scale : Float32) (color : Color) : PlanePreset :=
  let g := ((({ start := word "o0" } : Grammar).setRule (sym '0') (.fixed (word "1[-0][+0]1e")))
    |>.setRule (sym '1') (.fixed (word "11"))).aliasRule (sym 'e') (sym '0')
  let ip : PlaneInterpreter := { config := { stepLength := scale, color } }
  let ip := [('0', PlaneAction.draw scale), ('o', .mark), ('e', .mark), ('[', .push), (']', .pop),
    ('+', .rotate 45), ('-', .rotate (-45))].foldl (fun ip (c, a) => ip.setAction (sym c) a) ip
  ⟨g, ip.copyAction (sym '1') (sym '0')⟩

end PlanePreset

end Arbor
