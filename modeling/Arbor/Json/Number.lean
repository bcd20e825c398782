import Arbor.Json.Value
/-!
# Numbers of JSON text

A number is first split into its parts (`NumberText`) and then given a value
(`NumberText.value`). An integer without fraction or exponent that fits the 64-bit range keeps
its exact value. Every other number becomes a double by a fast rule that is not always the
nearest double:

* the digits are gathered into a significand below `2^64` (`NumberText.gather`): an integer digit
  that no longer fits is dropped and raises the power of ten by one, and a fraction digit that no
  longer fits is dropped together with every fraction digit after it;
* the significand, rounded to a double, is multiplied by the double nearest to `10^e`, or divided
  by the one nearest to `10^(-e)` (`scaleByPowerOfTen`); beyond `10^308` it is first divided by
  `1e308` as often as needed.

So `3e23` reads as `2.9999999999999997e23`, the product of `3` and the double nearest to `1e23`.
A number whose product is infinite is refused, and so is a number with a nonzero significand and
a positive exponent beyond the 32-bit range; a negative exponent beyond that range reads as zero.
-/

namespace Arbor

/-- The parts of a number as written: its sign, the digits before the point, the digits after
it (none without a point) and the exponent (its sign, `true` for `-`, and digits; none without
one). -/
structure NumberText where
  negative : Bool
  whole : List Nat
  fraction : Option (List Nat)
  exponent : Option (Bool × List Nat)

/-- The largest significand kept: `2^64 - 1`. -/
def significandMax : Nat := Nat.pow 2 64 - 1

/-- The largest exponent read: `2^31 - 1`. -/
def exponentMax : Nat := Nat.pow 2 31 - 1

/-- Digits gathered into a significand: its value, the power of ten it stands for, and whether
a digit of the current part no longer fitted. -/
structure Gathered where
  significand : Nat
  scale : Int
  full : Bool

namespace Gathered

/-- Whether appending the digit `d` keeps the significand at most `significandMax`. -/
def fits (g : Gathered) (d : Nat) : Bool := g.significand * 10 + d ≤ significandMax

/-- Appends a digit before the point; a digit that does not fit, and every one after it, is
dropped and raises the scale by one. -/
def pushWhole (g : Gathered) (d : Nat) : Gathered :=
  if !g.full && g.fits d then { g with significand := g.significand * 10 + d }
  else { g with scale := g.scale + 1, full := true }

/-- Appends a digit after the point; a digit that does not fit, and every one after it, is
dropped. -/
def pushFraction (g : Gathered) (d : Nat) : Gathered :=
  if !g.full && g.fits d then ⟨g.significand * 10 + d, g.scale - 1, false⟩
  else { g with full := true }

end Gathered

/-- The double nearest to `n`, of two equally near the one with an even significand. -/
def nearestDouble (n : Nat) : Float :=
  let width := n.log2 + 1
  if width ≤ 53 then n.toUInt64.toFloat
  else
    let drop := width - 53
    let q := n / Nat.pow 2 drop
    let r := n % Nat.pow 2 drop
    let half := Nat.pow 2 (drop - 1)
    let q := if half < r || (r = half && q % 2 = 1) then q + 1 else q
    q.toUInt64.toFloat.scaleB drop

/-- The double nearest to `10^k`. -/
def powerOfTen (k : Nat) : Float := nearestDouble (Nat.pow 10 k)

/-- `f · 10^e` by one product or quotient with `powerOfTen`, or `none` when the product is
infinite. An exponent beyond `308` is brought into range by dividing by `1e308` first; a
positive one is refused unless `f` is zero. -/
def scaleByPowerOfTen (f : Float) (e : Int) : Option Float :=
  if h₀ : e.natAbs ≤ 308 then
    if 0 ≤ e then
      let g := f * powerOfTen e.toNat
      if g.isInf then none else some g
    else some (f / powerOfTen e.natAbs)
  else if f == 0 then some f
  else if h : 0 ≤ e then none
  else scaleByPowerOfTen (f / powerOfTen 308) (e + 308)
termination_by e.natAbs
decreasing_by omega

/-- The value of exponent digits, or `none` once it passes `exponentMax`. -/
def exponentValue (ds : List Nat) : Option Nat :=
  ds.foldlM (fun acc d => if acc * 10 + d ≤ exponentMax then some (acc * 10 + d) else none) 0

/-- An exponent held to the 32-bit range. -/
def clampExponent (e : Int) : Int := max (-(exponentMax : Int) - 1) (min e exponentMax)

namespace NumberText

/-- The digits of a number gathered into a significand and its power of ten. -/
def gather (t : NumberText) : Gathered :=
  let g := t.whole.foldl Gathered.pushWhole ⟨0, 0, false⟩
  match t.fraction with
  | none => g
  | some ds => ds.foldl Gathered.pushFraction { g with full := false }

/-- `x` with the sign of the number. -/
def signed (t : NumberText) (x : Float) : Float := if t.negative then -x else x

/-- The double of a number, or `none` when it is out of range. -/
def toDouble (t : NumberText) : Option Float :=
  let g := t.gather
  let scaled (e : Int) := (scaleByPowerOfTen g.significand.toUInt64.toFloat e).map t.signed
  match t.exponent with
  | none => scaled g.scale
  | some (negative, ds) =>
    match exponentValue ds with
    | some x => scaled (clampExponent (if negative then g.scale - x else g.scale + x))
    | none => if g.significand ≠ 0 && !negative then none else some (t.signed 0)

/-- The value of a number. An integer without fraction or exponent whose digits all fit is
exact: from `-2^63` to `2^64 - 1`, a negative one below that range being the double of its
magnitude, negated, and `-0` a double. Every other number is its double. -/
def value (t : NumberText) : Option Json :=
  let g := t.gather
  if t.fraction.isNone && t.exponent.isNone && !g.full then
    if !t.negative then some (.int g.significand)
    else if 0 < g.significand && g.significand ≤ Nat.pow 2 63 then
      some (.int (-(g.significand : Int)))
    else some (.double (-g.significand.toUInt64.toFloat))
  else t.toDouble.map .double

end NumberText

end Arbor
