import Arbor.Text.Unicode
/-!
# Quoted text

`Quoted.render` shows a string between double quotes, as messages about a wrong value show it.
Each character is written by `Quoted.escape`:

* the quote, the backslash, the tab, the carriage return, the line feed and the null character
  by their backslash escapes `\"`, `\\`, `\t`, `\r`, `\n`, `\0`;
* a character that extends the one before it, or that is not printable, by its code point in
  lower-case hexadecimal, as `\u{301}`;
* every other character as itself. The single quote needs no escape.
-/

namespace Arbor

namespace Quoted

/-- Lower-case hexadecimal digits of `n`, without leading zeros. -/
def hex (n : Nat) : String :=
  String.ofList ((Nat.toDigits 16 n).map Char.toLower)

/-- The text that shows one character inside the quotes. -/
def escape (c : Char) : String :=
  if c = '"' then "\\\""
  else if c = '\\' then "\\\\"
  else if c = '\n' then "\\n"
  else if c = '\r' then "\\r"
  else if c = '\t' then "\\t"
  else if c = '\x00' then "\\0"
  else if Unicode.isGraphemeExtend c || !Unicode.isPrintable c then
    "\\u" ++ "\x7b" ++ hex c.toNat ++ "\x7d"
  else c.toString

/-- A string in double quotes, each character shown by `escape`. -/
def render (s : String) : String :=
  s.toList.foldl (fun acc c => acc ++ escape c) "\"" ++ "\""

end Quoted

end Arbor
