import Arbor.Json.Number
/-!
# Reading JSON text

Reading runs in two passes, each a walk over a list:

* `lex` turns characters into tokens. It is a machine with one state per kind of unfinished token
  (inside a string, after a backslash, inside `\u` digits, inside a number or a word), fed one
  character at a time;
* `Token.parse` turns tokens into a value, one token at a time, with a stack of the containers
  still open.

The text is refused when it breaks the JSON grammar: a control character inside a string, an
escape other than `\" \\ \/ \b \f \n \r \t \uXXXX`, a surrogate escape without its partner, a
number with a leading zero or a bare point, a number out of range (`NumberText.value`), a word
other than `true`, `false` and `null`, anything after the value, and more than 127 containers
open at once.
-/

namespace Arbor

/-- A token of JSON text. -/
inductive Token
  | openArr | closeArr | openObj | closeObj | colon | comma
  | str (s : String)
  | atom (v : Json)

namespace Token

/-- Whether `c` is JSON whitespace. -/
def isBlank (c : Char) : Bool := c = ' ' || c = '\t' || c = '\n' || c = '\r'

/-- The value of a hexadecimal digit. -/
def hexValue (c : Char) : Option Nat :=
  if '0' ≤ c && c ≤ '9' then some (c.toNat - 48)
  else if 'a' ≤ c && c ≤ 'f' then some (c.toNat - 87)
  else if 'A' ≤ c && c ≤ 'F' then some (c.toNat - 55)
  else none

/-- The values of decimal digit characters. -/
def digitValues (cs : List Char) : List Nat := cs.map fun c => c.toNat - 48

/-- Checks the grammar of a number's characters, `-? int ("." digits)? ([eE] [+-]? digits)?`
with no leading zero in `int`, and splits it into its parts. -/
def readNumber (cs : List Char) : Option NumberText :=
  let (negative, cs) := match cs with
    | '-' :: rest => (true, rest)
    | _ => (false, cs)
  let (whole, rest) := cs.span Char.isDigit
  if whole.isEmpty || (1 < whole.length && whole.head? = some '0') then none
  else
    let afterFraction : Option (Option (List Char) × List Char) := match rest with
      | '.' :: more =>
        let (ds, rest) := more.span Char.isDigit
        if ds.isEmpty then none else some (some ds, rest)
      | _ => some (none, rest)
    afterFraction.bind fun (fraction, rest) =>
      let exponent : Option (Option (Bool × List Char)) := match rest with
        | [] => some none
        | e :: more =>
          if e = 'e' || e = 'E' then
            let (expNegative, more) := match more with
              | '+' :: r => (false, r)
              | '-' :: r => (true, r)
              | _ => (false, more)
            let (ds, r) := more.span Char.isDigit
            if ds.isEmpty || !r.isEmpty then none else some (some (expNegative, ds))
          else none
      exponent.map fun ex =>
        ⟨negative, digitValues whole, fraction.map digitValues,
          ex.map fun (n, ds) => (n, digitValues ds)⟩

/-- The token of a finished word. -/
def ofWord (w : List Char) : Option Token :=
  match String.ofList w with
  | "true" => some (.atom (.bool true))
  | "false" => some (.atom (.bool false))
  | "null" => some (.atom .null)
  | _ => none

/-- The state of the lexer between two characters; text gathered so far is kept reversed. -/
inductive Lexer
  | between
  | text (acc : List Char)
  | escape (acc : List Char)
  /-- Inside `\u`: the digits read so far and the high surrogate waiting for its partner. -/
  | hex (acc : List Char) (high : Option Nat) (digits : List Nat)
  /-- After a high surrogate: its partner must start with a backslash, then `u`. -/
  | pairSlash (acc : List Char) (high : Nat)
  | pairU (acc : List Char) (high : Nat)
  | number (acc : List Char)
  | word (acc : List Char)

/-- One character outside any token: a token of its own, the start of one, or a blank. -/
def startToken (c : Char) : Option (Lexer × List Token) :=
  if isBlank c then some (.between, [])
  else if c = '[' then some (.between, [.openArr])
  else if c = ']' then some (.between, [.closeArr])
  else if c = '{' then some (.between, [.openObj])
  else if c = '}' then some (.between, [.closeObj])
  else if c = ':' then some (.between, [.colon])
  else if c = ',' then some (.between, [.comma])
  else if c = '"' then some (.text [], [])
  else if c = '-' || ('0' ≤ c && c ≤ '9') then some (.number [c], [])
  else if ('a' ≤ c && c ≤ 'z') || ('A' ≤ c && c ≤ 'Z') then some (.word [c], [])
  else none

/-- The character of a code point read from `\u` digits, after surrogates are paired. -/
def codeChar (acc : List Char) (n : Nat) : Lexer := .text (Char.ofNat n :: acc)

/-- Feeds one character to the lexer: the next state and the tokens completed. -/
def step : Lexer → Char → Option (Lexer × List Token)
  | .between, c => startToken c
  | .text acc, c =>
    if c = '"' then some (.between, [.str (String.ofList acc.reverse)])
    else if c = '\\' then some (.escape acc, [])
    else if c.toNat < 0x20 then none
    else some (.text (c :: acc), [])
  | .escape acc, c =>
    match c with
    | '"' => some (.text ('"' :: acc), [])
    | '\\' => some (.text ('\\' :: acc), [])
    | '/' => some (.text ('/' :: acc), [])
    | 'b' => some (.text ('\x08' :: acc), [])
    | 'f' => some (.text ('\x0c' :: acc), [])
    | 'n' => some (.text ('\n' :: acc), [])
    | 'r' => some (.text ('\r' :: acc), [])
    | 't' => some (.text ('\t' :: acc), [])
    | 'u' => some (.hex acc none [], [])
    | _ => none
  | .hex acc high ds, c =>
    match hexValue c with
    | none => none
    | some d =>
      if ds.length < 3 then some (.hex acc high (ds ++ [d]), [])
      else
        let n := (ds ++ [d]).foldl (fun a x => a * 16 + x) 0
        match high with
        | none =>
          if 0xDC00 ≤ n && n ≤ 0xDFFF then none
          else if 0xD800 ≤ n && n ≤ 0xDBFF then some (.pairSlash acc n, [])
          else some (codeChar acc n, [])
        | some h =>
          if 0xDC00 ≤ n && n ≤ 0xDFFF then
            some (codeChar acc (0x10000 + (h - 0xD800) * 0x400 + (n - 0xDC00)), [])
          else none
  | .pairSlash acc h, c => if c = '\\' then some (.pairU acc h, []) else none
  | .pairU acc h, c => if c = 'u' then some (.hex acc (some h) [], []) else none
  | .number acc, c =>
    if ('0' ≤ c && c ≤ '9') || c = '.' || c = 'e' || c = 'E' || c = '+' || c = '-' then
      some (.number (c :: acc), [])
    else do
      let v ← (readNumber acc.reverse).bind NumberText.value
      let (st, ts) ← startToken c
      some (st, .atom v :: ts)
  | .word acc, c =>
    if ('a' ≤ c && c ≤ 'z') || ('A' ≤ c && c ≤ 'Z') then some (.word (c :: acc), [])
    else do
      let t ← ofWord acc.reverse
      let (st, ts) ← startToken c
      some (st, t :: ts)

/-- The tokens still owed when the text ends in state `st`. -/
def finish : Lexer → Option (List Token)
  | .between => some []
  | .number acc => ((readNumber acc.reverse).bind NumberText.value).map fun v => [.atom v]
  | .word acc => (ofWord acc.reverse).map fun t => [t]
  | _ => none

/-- Splits characters into tokens, `done` holding the tokens found so far in reverse. -/
def lexFrom : Lexer → List Token → List Char → Option (List Token)
  | st, done, [] => (finish st).map fun ts => done.reverse ++ ts
  | st, done, c :: cs =>
    match step st c with
    | none => none
    | some (st', ts) => lexFrom st' (ts.reverse ++ done) cs

/-- The tokens of a text. -/
def lex (s : String) : Option (List Token) := lexFrom .between [] s.toList

/-- A container still open while tokens are read; members are kept reversed. -/
inductive Frame
  | arr (items : List Json)
  | obj (members : List (String × Json)) (key : Option String)

/-- What the next token may be. -/
inductive Expect
  /-- a value, or `]` right after `[` -/
  | value (closeAllowed : Bool)
  /-- a key, or `}` right after `{` -/
  | key (closeAllowed : Bool)
  | colon
  /-- `,` or the close of the innermost container -/
  | next

/-- The most containers that may be open at once. -/
def maxDepth : Nat := 127

/-- Places a finished value into the innermost container, or returns it when none is open. -/
def attach (v : Json) : List Frame → Option (Json ⊕ List Frame)
  | [] => some (.inl v)
  | .arr xs :: fs => some (.inr (.arr (v :: xs) :: fs))
  | .obj ms (some k) :: fs => some (.inr (.obj ((k, v) :: ms) none :: fs))
  | .obj _ none :: _ => none

/-- The reader between two tokens: what may come next, the containers still open, and the
whole value once it is complete. -/
structure Reader where
  expect : Expect
  frames : List Frame
  result : Option Json

/-- The reader after a value is complete: placed into the innermost open container, or kept as
the whole value when none is open. -/
def Reader.complete (v : Json) (fs : List Frame) : Option Reader :=
  match attach v fs with
  | some (.inl v) => some ⟨.next, [], some v⟩
  | some (.inr fs') => some ⟨.next, fs', none⟩
  | none => none

/-- Feeds one token to the reader. No token is accepted after the whole value. -/
def Reader.feed (r : Reader) (t : Token) : Option Reader :=
  match r.expect, r.frames, t with
  | .value _, fs, .atom v => complete v fs
  | .value _, fs, .str s => complete (.str s) fs
  | .value _, fs, .openArr =>
    if fs.length < maxDepth then some ⟨.value true, .arr [] :: fs, none⟩ else none
  | .value _, fs, .openObj =>
    if fs.length < maxDepth then some ⟨.key true, .obj [] none :: fs, none⟩ else none
  | .value true, .arr xs :: fs, .closeArr => complete (.arr xs.reverse) fs
  | .key _, .obj ms _ :: fs, .str k => some ⟨.colon, .obj ms (some k) :: fs, none⟩
  | .key true, .obj ms _ :: fs, .closeObj => complete (.obj (Json.membersOf ms.reverse)) fs
  | .colon, fs, .colon => some ⟨.value false, fs, none⟩
  | .next, .arr xs :: fs, .comma => some ⟨.value false, .arr xs :: fs, none⟩
  | .next, .arr xs :: fs, .closeArr => complete (.arr xs.reverse) fs
  | .next, .obj ms k :: fs, .comma => some ⟨.key false, .obj ms k :: fs, none⟩
  | .next, .obj ms _ :: fs, .closeObj => complete (.obj (Json.membersOf ms.reverse)) fs
  | _, _, _ => none

/-- Reads a value from tokens: all of them must be used, and they must make one value. -/
def parse (ts : List Token) : Option Json :=
  (ts.foldlM Reader.feed ⟨.value false, [], none⟩).bind Reader.result

end Token

/-- Reads a JSON text: one value with blanks around it, or `none` when the text is not JSON. -/
def Json.parse? (s : String) : Option Json :=
  (Token.lex s).bind Token.parse

end Arbor
