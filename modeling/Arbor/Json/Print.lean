import Arbor.Json.Value
import Arbor.Decimal.Notation
/-!
# Writing JSON text

`Json.render` writes a value compactly: no blank between tokens, members in the order they are
held. A string escapes the quote, the backslash and the control characters, the common ones by
their short escapes (`\n`, `\t`, …) and the others as `\u00XX`; every other character is written
as itself. A number is written with the fewest digits that read back in its own precision (of two
equally near, the one with an even last digit), laid out by `Notation.json` in double precision
and `Notation.jsonSingle` in single precision; a number that is not finite has no JSON text and
is written `null`.
-/

namespace Arbor

namespace Json

/-- The hexadecimal digit of `n < 16`, in lower case. -/
def hexDigit (n : Nat) : Char :=
  if n < 10 then Char.ofNat (48 + n) else Char.ofNat (87 + n)

/-- Appends the escaped form of one character of a string. -/
def escapeChar (acc : String) (c : Char) : String :=
  if c = '"' then acc ++ "\\\""
  else if c = '\\' then acc ++ "\\\\"
  else if c = '\n' then acc ++ "\\n"
  else if c = '\r' then acc ++ "\\r"
  else if c = '\t' then acc ++ "\\t"
  else if c = '\x08' then acc ++ "\\b"
  else if c = '\x0c' then acc ++ "\\f"
  else if c.toNat < 0x20 then
    ((acc ++ "\\u00").push (hexDigit (c.toNat / 16))).push (hexDigit (c.toNat % 16))
  else acc.push c

/-- Appends a quoted string. -/
def quoteInto (acc : String) (s : String) : String :=
  (s.toList.foldl escapeChar (acc.push '"')).push '"'

/-- The text of a number from its bit pattern in the format `f`, laid out by `layout`. -/
def numberText (f : BinaryFormat) (layout : Notation) (bits : Nat) : String :=
  match Decimal.ofBits f .even bits with
  | .finite neg d => layout.render neg d
  | _ => "null"

/-- The text of a single-precision number. -/
def singleText (x : Float32) : String := numberText .single Notation.jsonSingle x.toBits.toNat

/-- The text of a double-precision number. -/
def doubleText (x : Float) : String := numberText .double Notation.json x.toBits.toNat

mutual

/-- Appends the text of a value. -/
def writeInto (acc : String) : Json → String
  | .null => acc ++ "null"
  | .bool b => acc ++ (if b then "true" else "false")
  | .int n => acc ++ toString n
  | .double x => acc ++ doubleText x
  | .single x => acc ++ singleText x
  | .decimal neg d => acc ++ Notation.json.render neg d
  | .str s => quoteInto acc s
  | .arr xs => (writeItems (acc.push '[') true xs).push ']'
  | .obj ms => (writeMembers (acc.push '{') true ms).push '}'

/-- Appends array items, separated by commas. -/
def writeItems (acc : String) (first : Bool) : List Json → String
  | [] => acc
  | x :: xs => writeItems (writeInto (if first then acc else acc.push ',') x) false xs

/-- Appends object members, separated by commas. -/
def writeMembers (acc : String) (first : Bool) : List (String × Json) → String
  | [] => acc
  | (k, v) :: ms =>
    writeMembers (writeInto (quoteInto (if first then acc else acc.push ',') k |>.push ':') v)
      false ms

end

/-- The compact text of a value. -/
def render (j : Json) : String := writeInto "" j

end Json

end Arbor
