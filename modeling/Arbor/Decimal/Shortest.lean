/-!
# Shortest decimals of binary floating-point numbers

A finite binary floating-point number `m · 2^e` is read back from every real inside its rounding
interval: the reals nearer to it than to either neighbour, the two ends included when `m` is even
(a tie is rounded to the even neighbour). `Decimal.ofBinary` picks, among the decimals inside that
interval, one with the fewest significant digits, and of two such the nearer to the value; of two
equally near, the `Tie` rule picks the one with an even last digit or the larger one.

The search is exact. The value is written `w · 10^z` with `w` a natural number of `L` digits;
for `n = 1, 2, …` the two neighbours of `w` on the grid of multiples of `10^(L - n)` are tested.
When some decimal of `n` digits lies in the interval, so does one of these two neighbours, so the
first `n` with a hit is the least; at `n = L` the value itself is a hit.

* `BinaryFormat.decode` splits a bit pattern into sign, significand and exponent;
* `Decimal.ofBinary` is the shortest nearest decimal of a positive finite value;
* `Decimal.ofBits` does both for a whole bit pattern.
-/

namespace Arbor

/-- A binary interchange format, given by the widths of its fraction and exponent fields. -/
structure BinaryFormat where
  fracBits : Nat
  expBits : Nat

/-- What a bit pattern of a binary format stands for. -/
inductive BinaryValue
  | nan
  | infinity (negative : Bool)
  /-- `±m · 2^e`; `narrowBelow` marks a power of two whose gap to the next smaller value is
  half the gap to the next larger one. -/
  | finite (negative : Bool) (m : Nat) (e : Int) (narrowBelow : Bool)

namespace BinaryFormat

/-- Single precision: 23 fraction bits and 8 exponent bits. -/
def single : BinaryFormat := ⟨23, 8⟩

/-- Double precision: 52 fraction bits and 11 exponent bits. -/
def double : BinaryFormat := ⟨52, 11⟩

/-- The exponent bias. -/
def bias (f : BinaryFormat) : Nat := Nat.pow 2 (f.expBits - 1) - 1

/-- Splits a bit pattern into its fields: the top bit is the sign, then the biased exponent,
then the fraction. The largest exponent field holds the infinities and the NaNs; the zero field
holds zero and the subnormals, which share the exponent of the least normal field. -/
def decode (f : BinaryFormat) (bits : Nat) : BinaryValue :=
  let frac := bits % Nat.pow 2 f.fracBits
  let field := bits / Nat.pow 2 f.fracBits % Nat.pow 2 f.expBits
  let negative := bits / Nat.pow 2 (f.fracBits + f.expBits) % 2 == 1
  if field = Nat.pow 2 f.expBits - 1 then
    if frac = 0 then .infinity negative else .nan
  else if field = 0 then
    .finite negative frac (1 - (f.bias : Int) - f.fracBits) false
  else
    .finite negative (frac + Nat.pow 2 f.fracBits) ((field : Int) - f.bias - f.fracBits)
      (frac = 0 && field > 1)

end BinaryFormat

/-- Which of two shortest decimals equally near the value is taken. -/
inductive Tie
  /-- the one whose last digit is even -/
  | even
  /-- the larger in magnitude -/
  | up
deriving BEq, Repr

/-- The decimal `mantissa · 10^exponent`. -/
structure Decimal where
  mantissa : Nat
  exponent : Int
deriving BEq, Repr

namespace Decimal

/-- Number of decimal digits of `n`; zero has one digit. -/
def digitCount (n : Nat) : Nat :=
  if n < 10 then 1 else digitCount (n / 10) + 1
termination_by n
decreasing_by omega

/-- Moves the trailing zero digits of the mantissa into the exponent; the value is unchanged. -/
def trim (d : Decimal) : Decimal :=
  if d.mantissa ≠ 0 ∧ d.mantissa % 10 = 0 then
    trim ⟨d.mantissa / 10, d.exponent + 1⟩
  else d
termination_by d.mantissa
decreasing_by omega

/-- An interval of naturals, open or closed at both ends. -/
structure Window where
  lo : Nat
  hi : Nat
  closed : Bool

/-- Membership in a window. -/
def Window.contains (iv : Window) (x : Nat) : Bool :=
  if iv.closed then iv.lo ≤ x && x ≤ iv.hi else iv.lo < x && x < iv.hi

/-- The grid point of `10^drop` below or above `w` that lies in the window `iv` (scaled by 4),
the nearer if both do, the one the rule `tie` picks if both are equally near. -/
def gridHit (tie : Tie) (w : Nat) (iv : Window) (drop : Nat) : Option Nat :=
  let p := Nat.pow 10 drop
  let q := w / p
  let down := iv.contains (4 * (q * p))
  let up := iv.contains (4 * ((q + 1) * p))
  if down && up then
    if w - q * p < (q + 1) * p - w then some q
    else if (q + 1) * p - w < w - q * p then some (q + 1)
    else match tie with
      | .even => if q % 2 = 0 then some q else some (q + 1)
      | .up => some (q + 1)
  else if down then some q
  else if up then some (q + 1)
  else none

/-- Tries the grids `10^drop`, `10^(drop - 1)`, …, `10^0` in turn and returns the first hit with
its grid; the last grid is the value itself. -/
def search (tie : Tie) (w : Nat) (iv : Window) : Nat → Nat × Nat
  | 0 => ((gridHit tie w iv 0).getD w, 0)
  | d + 1 =>
    match gridHit tie w iv (d + 1) with
    | some c => (c, d + 1)
    | none => search tie w iv d

/-- The shortest nearest decimal of the positive value `m · 2^e` (zero for `m = 0`). -/
def ofBinary (tie : Tie) (m : Nat) (e : Int) (narrowBelow : Bool) : Decimal :=
  if m = 0 then ⟨0, 0⟩ else
  -- `w · 10^z` is the value; `u` is `2^e` measured in units of `10^z`
  let (w, z, u) : Nat × Int × Nat :=
    if 0 ≤ e then (m * Nat.pow 2 e.toNat, 0, Nat.pow 2 e.toNat)
    else (m * Nat.pow 5 e.natAbs, e, Nat.pow 5 e.natAbs)
  let iv : Window := ⟨4 * w - (if narrowBelow then u else 2 * u), 4 * w + 2 * u, m % 2 == 0⟩
  let (c, drop) := search tie w iv (digitCount w - 1)
  trim ⟨c, z + drop⟩

/-- A finite number with its sign, or a value that has no decimal. -/
inductive Reading
  | nan
  | infinity (negative : Bool)
  | finite (negative : Bool) (d : Decimal)

/-- The shortest nearest decimal of a bit pattern of the format `f`. -/
def ofBits (f : BinaryFormat) (tie : Tie) (bits : Nat) : Reading :=
  match f.decode bits with
  | .nan => .nan
  | .infinity neg => .infinity neg
  | .finite neg m e narrow => .finite neg (ofBinary tie m e narrow)

end Decimal

end Arbor
