import Arbor.Json.Print
import Arbor.Text.Quoted
/-!
# Reading typed data from JSON values

Data files are read field by field, and a file that does not fit its type is refused with a
`DecodeError` saying what was found and what was expected, for instance
``invalid type: string "x", expected f32`` or ``missing field `g` ``.

* Numbers: a single-precision field takes any number, rounded to single precision; an unsigned
  field of `bits` bits takes integers `0 ≤ n < 2^bits`, a larger or negative integer being an
  invalid value and a fractional number an invalid type.
* Records (`openRecord`) come as an object or as an array. An object's members are read in the
  order of their keys and unknown keys are ignored; a field that is absent then takes its
  default, or is reported missing, fields taken in declaration order. An array gives the fields
  in declaration order; a missing element takes its default or is an invalid length, and
  elements beyond the last field are an invalid length once all fields are read.
-/

namespace Arbor

variable {α : Type}

/-- What a value found in place of the expected one was. -/
inductive Unexpected
  | bool (b : Bool)
  | unsigned (n : Nat)
  | signed (n : Int)
  | float (x : Float)
  | str (s : String)
  | null
  | seq
  | map

namespace Unexpected

/-- The description of what was found. -/
def describe : Unexpected → String
  | .bool b => "boolean `" ++ (if b then "true" else "false") ++ "`"
  | .unsigned n => "integer `" ++ toString n ++ "`"
  | .signed n => "integer `" ++ toString n ++ "`"
  | .float x => "floating point `" ++ Json.doubleText x ++ "`"
  | .str s => "string " ++ Quoted.render s
  | .null => "null"
  | .seq => "sequence"
  | .map => "map"

end Unexpected

/-- What a value is, for an error about it. -/
def Json.unexpected : Json → Unexpected
  | .null => .null
  | .bool b => .bool b
  | .int n => if 0 ≤ n then .unsigned n.toNat else .signed n
  | .double x => .float x
  | .single x => .float x.toFloat
  | .decimal neg d =>
    let x := if d.exponent < 0 then Float.ofScientific d.mantissa true d.exponent.natAbs
      else Float.ofScientific d.mantissa false d.exponent.toNat
    .float (if neg then -x else x)
  | .str s => .str s
  | .arr _ => .seq
  | .obj _ => .map

/-- Why a value could not be read. -/
inductive DecodeError
  | invalidType (found : Unexpected) (expected : String)
  | invalidValue (found : Unexpected) (expected : String)
  | invalidLength (len : Nat) (expected : String)
  | missingField (name : String)
  | unknownVariant (name : String) (expected : List String)
  /-- The text is not JSON at all. -/
  | notJson

namespace DecodeError

/-- The names of the accepted variants, in words. -/
def oneOf : List String → String
  | [] => "there are no variants"
  | [a] => "`" ++ a ++ "`"
  | [a, b] => "`" ++ a ++ "` or `" ++ b ++ "`"
  | names => "one of " ++ ", ".intercalate (names.map fun n => "`" ++ n ++ "`")

/-- The text of an error. -/
def message : DecodeError → String
  | .invalidType u e => "invalid type: " ++ u.describe ++ ", expected " ++ e
  | .invalidValue u e => "invalid value: " ++ u.describe ++ ", expected " ++ e
  | .invalidLength n e => "invalid length " ++ toString n ++ ", expected " ++ e
  | .missingField n => "missing field `" ++ n ++ "`"
  | .unknownVariant n vs =>
    "unknown variant `" ++ n ++ "`, expected " ++ oneOf vs
  | .notJson => "invalid JSON"

end DecodeError

/-- A reader of values of type `α`. -/
abbrev Decoder (α : Type) := Json → Except DecodeError α

namespace Decoder

/-- A single-precision number: any number, rounded. -/
def single : Decoder Float32
  | .int n => if 0 ≤ n then .ok (Float32.ofNat n.toNat) else .ok (-(Float32.ofNat n.natAbs))
  | .double x => .ok x.toFloat32
  | .single x => .ok x
  | j => .error (.invalidType j.unexpected "f32")

/-- An unsigned integer of `bits` bits, named `name` in errors. -/
def unsigned (bits : Nat) (name : String) : Decoder Nat
  | .int n =>
    if n < 0 then .error (.invalidValue (.signed n) name)
    else if n.toNat < Nat.pow 2 bits then .ok n.toNat
    else .error (.invalidValue (.unsigned n.toNat) name)
  | j => .error (.invalidType j.unexpected name)

/-- A byte. -/
def byte : Decoder UInt8 := fun j => (unsigned 8 "u8" j).map Nat.toUInt8

/-- A 32-bit unsigned integer. -/
def word32 : Decoder Nat := unsigned 32 "u32"

/-- A boolean. -/
def bool : Decoder Bool
  | .bool b => .ok b
  | j => .error (.invalidType j.unexpected "a boolean")

/-- A list of values. -/
def list (d : Decoder α) : Decoder (List α)
  | .arr xs => xs.mapM d
  | j => .error (.invalidType j.unexpected "a sequence")

/-- An optional value: `null` is none. -/
def option (d : Decoder α) : Decoder (Option α)
  | .null => .ok none
  | j => (d j).map some

/-- A tuple of `n` values of one type, read from an array, named `what` in errors. -/
def tuple (what : String) (n : Nat) (d : Decoder α) : Decoder (List α)
  | .arr xs =>
    if xs.length < n then
      -- the elements present are read first, then the first missing one is reported
      match (xs.mapM d) with
      | .error e => .error e
      | .ok _ => .error (.invalidLength xs.length what)
    else
      match (xs.take n).mapM d with
      | .error e => .error e
      | .ok vs =>
        if n < xs.length then .error (.invalidLength xs.length "fewer elements in array")
        else .ok vs
  | j => .error (.invalidType j.unexpected what)

end Decoder

/-- Where a record's field came from. -/
inductive Slot
  | present (v : Json)
  /-- An absent member of an object. -/
  | absent (name : String)
  /-- A missing element of an array: its index and the record's description. -/
  | short (index : Nat) (what : String)

namespace Slot

/-- The field's value; an absent field is an error. -/
def required (s : Slot) (d : Decoder α) : Except DecodeError α :=
  match s with
  | .present v => d v
  | .absent n => .error (.missingField n)
  | .short i what => .error (.invalidLength i what)

/-- The field's value, or `dflt` when it is absent. -/
def withDefault (s : Slot) (d : Decoder α) (dflt : α) : Except DecodeError α :=
  match s with
  | .present v => d v
  | _ => .ok dflt

/-- An optional field: absent from an object or `null` is none. -/
def optional (s : Slot) (d : Decoder α) : Except DecodeError (Option α) :=
  match s with
  | .present v => Decoder.option d v
  | .absent _ => .ok none
  | .short i what => .error (.invalidLength i what)

end Slot

/-- A record opened for reading: one slot per declared field, and the error owed for elements
beyond the last field. -/
structure Record where
  slots : List Slot
  excess : Option DecodeError

namespace Record

/-- The slot of the field at `i`. -/
def slot (r : Record) (i : Nat) : Slot := r.slots.getD i (.absent "")

/-- Raises the error owed for extra elements, once all fields are read. -/
def finish (r : Record) : Except DecodeError Unit :=
  match r.excess with
  | some e => .error e
  | none => .ok ()

end Record

/-- A declared field of a record: its name and a check that a value of it can be read. -/
structure FieldCheck where
  name : String
  check : Json → Except DecodeError Unit

/-- A field named `name` read by `d`. -/
def FieldCheck.of (name : String) (d : Decoder α) : FieldCheck :=
  ⟨name, fun j => (d j).map fun _ => ()⟩

/-- Opens a record with the declared fields `fields`, described as `what` in errors. Members of
an object are checked in key order; unknown members are ignored. -/
def openRecord (what : String) (fields : List FieldCheck) : Json → Except DecodeError Record
  | .obj ms => do
    for (k, v) in ms do
      match fields.find? (·.name == k) with
      | some f => f.check v
      | none => pure ()
    pure ⟨fields.map fun f =>
      match ms.lookup f.name with
      | some v => .present v
      | none => .absent f.name, none⟩
  | .arr xs =>
    let described := what ++ " with " ++ toString fields.length ++ " elements"
    .ok ⟨(List.range fields.length).map fun i =>
      match xs[i]? with
      | some v => .present v
      | none => .short i described,
      if fields.length < xs.length then some (.invalidLength xs.length "fewer elements in array")
      else none⟩
  | j => .error (.invalidType j.unexpected what)

end Arbor
