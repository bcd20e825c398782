import Arbor.Decimal.Shortest
/-!
# JSON values

The data files of this library (configurations, skeletons) are JSON. A number keeps the kind its
text had: an integer literal that fits in 64 bits is an `int`, every other number a `double`.
Numbers computed in single precision are written with the digits of single precision, so they
have a constructor of their own; a number may also be given by its decimal digits.

An object read from text holds its members sorted by key, each key once; an object built to be
written keeps the order it was built in.
-/

namespace Arbor

/-- A JSON value. -/
inductive Json
  | null
  | bool (b : Bool)
  /-- An integer literal of the 64-bit range: `-2^63 ≤ n < 2^64`. -/
  | int (n : Int)
  /-- Any other number, rounded to double precision. -/
  | double (x : Float)
  /-- A single-precision number, written with the fewest digits that read back in single
  precision. -/
  | single (x : Float32)
  /-- A number given by its decimal digits: `±d`. -/
  | decimal (negative : Bool) (d : Decimal)
  | str (s : String)
  | arr (items : List Json)
  | obj (members : List (String × Json))

namespace Json

/-- The member of an object under `key`. -/
def field? (j : Json) (key : String) : Option Json :=
  match j with
  | .obj ms => ms.lookup key
  | _ => none

/-- Inserts a member into a list sorted by key; a member already under the key is replaced. -/
def insertSorted (key : String) (v : Json) : List (String × Json) → List (String × Json)
  | [] => [(key, v)]
  | (k, w) :: rest =>
    if key < k then (key, v) :: (k, w) :: rest
    else if key = k then (key, v) :: rest
    else (k, w) :: insertSorted key v rest

/-- The members of an object as read: sorted by key, the last of equal keys kept. -/
def membersOf (ms : List (String × Json)) : List (String × Json) :=
  ms.foldl (fun acc m => insertSorted m.1 m.2 acc) []

end Json

end Arbor
