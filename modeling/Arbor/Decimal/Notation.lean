import Arbor.Decimal.Shortest
/-!
# Writing a decimal as text

A `Notation` fixes the layout of a decimal: for which powers of ten the digits are written
positionally, whether an integral value keeps a `.0`, and how the exponent is marked otherwise.
`Notation.json` is the layout of double-precision numbers in the data files of this library:
positional from `1e-5` up to below `1e16`, an integral value ends in `.0`, and beyond that range
one digit before the point and an exponent with its sign, as in `1.15e+16` and `1e-45`.
`Notation.jsonSingle` is the same layout for single-precision numbers, whose positional range
is narrower: from `1e-6` up to below `1e13`.
-/

namespace Arbor

/-- The layout of a decimal as text. -/
structure Notation where
  /-- Least scientific exponent written positionally, if any bound. -/
  positionalFrom : Option Int
  /-- Scientific exponents at or above this are written with an exponent, if any bound. -/
  positionalBelow : Option Int
  /-- An integral value written positionally ends in `.0`. -/
  pointZero : Bool
  /-- A non-negative exponent is written with `+`. -/
  plusExponent : Bool

namespace Notation

/-- Double-precision numbers of the data files: positional for `1e-5 ≤ |x| < 1e16`, `.0` on integral values,
`e+NN` and `e-NN` elsewhere. -/
def json : Notation := ⟨some (-5), some 16, true, true⟩

/-- Single-precision numbers of the data files: positional for `1e-6 ≤ |x| < 1e13`, otherwise
as `json`. -/
def jsonSingle : Notation := ⟨some (-6), some 13, true, true⟩

/-- The text of `n` zeros. -/
def zeros (n : Nat) : String := String.ofList (List.replicate n '0')

/-- The decimal digits of a natural number, most significant first. -/
def digits (n : Nat) : List Char :=
  if n < 10 then [Char.ofNat (48 + n)] else digits (n / 10) ++ [Char.ofNat (48 + n % 10)]
termination_by n
decreasing_by omega

/-- Whether the scientific exponent `sci` is written positionally. -/
def positional (f : Notation) (sci : Int) : Bool :=
  (match f.positionalFrom with | some lo => decide (lo ≤ sci) | none => true) &&
  (match f.positionalBelow with | some hi => decide (sci < hi) | none => true)

/-- The text of a non-negative decimal. -/
def unsigned (f : Notation) (d : Decimal) : String :=
  let ds := digits d.mantissa
  let n := ds.length
  let sci : Int := n - 1 + d.exponent
  if f.positional sci then
    if 0 ≤ d.exponent then
      String.ofList ds ++ zeros d.exponent.toNat ++ (if f.pointZero then ".0" else "")
    else if 0 ≤ sci then
      String.ofList (ds.take (sci.toNat + 1)) ++ "." ++ String.ofList (ds.drop (sci.toNat + 1))
    else
      "0." ++ zeros ((-sci).toNat - 1) ++ String.ofList ds
  else
    let head := String.ofList (ds.take 1)
    let tail := if n > 1 then "." ++ String.ofList (ds.drop 1) else ""
    let sign := if sci < 0 then "-" else if f.plusExponent then "+" else ""
    head ++ tail ++ "e" ++ sign ++ toString sci.natAbs

/-- The text of a signed decimal. -/
def render (f : Notation) (negative : Bool) (d : Decimal) : String :=
  (if negative then "-" else "") ++ f.unsigned d

end Notation

end Arbor
