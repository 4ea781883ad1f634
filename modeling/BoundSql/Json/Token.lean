import BoundSql.Number.Digits

/-!
# JSON tokens

The tokens of RFC 8259: brackets and braces, commas and colons, the three words, strings and
numbers. A text is scanned from left to right by `Scanner.step`, one character at a time.

A string may be well-formed and yet write no text, because an escape names half of a surrogate pair
without the other half. Such a string is a token, too: it is `none` where a text is `some`.
-/

namespace BoundSql.Json

open Number (isDigits digitsValue)

/-- What a string token writes; `none` if a surrogate in it has no partner. -/
abbrev StringToken := Option String

/-- A number as it is written. -/
structure NumberToken where
  negative : Bool
  /-- The digits before the point. -/
  whole : List Char
  /-- The digits after the point; none if there is no point. -/
  fraction : List Char
  /-- The exponent, if one is written. -/
  exponent : Option Int
  deriving DecidableEq

inductive Token where
  | openArray
  | closeArray
  | openObject
  | closeObject
  | comma
  | colon
  | null
  | bool (b : Bool)
  | number (n : NumberToken)
  | string (s : StringToken)
  deriving DecidableEq

/-! ### Numbers and words -/

namespace NumberToken

/-- Digits before the point: at least one, and no zero before others. -/
def isWhole : List Char → Bool
  | [] => false
  | ['0'] => true
  | c :: cs => c != '0' && isDigits (c :: cs)

/-- The exponent after its `e`: an optional sign and at least one digit. -/
def exponent? (cs : List Char) : Option Int :=
  let (negative, digits) := Number.splitSign cs
  if isDigits digits && !digits.isEmpty then
    some (if negative then -(digitsValue digits : Int) else digitsValue digits)
  else none

/-- A number whose digits before the point have been read, from what follows them. -/
def rest? (negative : Bool) (whole : List Char) (cs : List Char) : Option NumberToken := do
  let (fraction, tail) ← match cs with
    | '.' :: cs =>
      let fraction := cs.takeWhile Char.isDigit
      if fraction.isEmpty then none else some (fraction, cs.dropWhile Char.isDigit)
    | cs => some ([], cs)
  match tail with
  | [] => some ⟨negative, whole, fraction, none⟩
  | 'e' :: cs | 'E' :: cs => (exponent? cs).map fun e => ⟨negative, whole, fraction, some e⟩
  | _ => none

def parse? (cs : List Char) : Option NumberToken :=
  let (negative, cs) := match cs with
    | '-' :: cs => (true, cs)
    | cs => (false, cs)
  let whole := cs.takeWhile Char.isDigit
  if isWhole whole then rest? negative whole (cs.dropWhile Char.isDigit) else none

end NumberToken

/-- The token of a run of characters without blanks, quotes and punctuation. -/
def Token.ofWord? (cs : List Char) : Option Token :=
  if cs = "null".toList then some .null
  else if cs = "true".toList then some (.bool true)
  else if cs = "false".toList then some (.bool false)
  else (NumberToken.parse? cs).map .number

/-- The token that is a single character. -/
def Token.ofPunctuation? : Char → Option Token
  | '[' => some .openArray
  | ']' => some .closeArray
  | '\x7b' => some .openObject
  | '\x7d' => some .closeObject
  | ',' => some .comma
  | ':' => some .colon
  | _ => none

/-! ### Strings -/

/-- The text of a string's units, each of which is a code point or, after an escape, possibly half
of a surrogate pair. -/
def joinUnits? : List Nat → Option (List Char)
  | [] => some []
  | [u] => if 0xD800 ≤ u && u ≤ 0xDFFF then none else some [Char.ofNat u]
  | u :: v :: us =>
    if 0xD800 ≤ u && u ≤ 0xDBFF then
      if 0xDC00 ≤ v && v ≤ 0xDFFF then
        (joinUnits? us).map (Char.ofNat (0x10000 + (u - 0xD800) * 0x400 + (v - 0xDC00)) :: ·)
      else none
    else if 0xDC00 ≤ u && u ≤ 0xDFFF then none
    else (joinUnits? (v :: us)).map (Char.ofNat u :: ·)

/-- The character that a single letter stands for after a backslash. -/
def escaped? : Char → Option Nat
  | '"' => some 0x22
  | '\\' => some 0x5C
  | '/' => some 0x2F
  | 'b' => some 0x08
  | 'f' => some 0x0C
  | 'n' => some 0x0A
  | 'r' => some 0x0D
  | 't' => some 0x09
  | _ => none

/-- The value of a hexadecimal digit of either case. -/
def hexValue? (c : Char) : Option Nat :=
  let n := c.toNat
  if 0x30 ≤ n && n ≤ 0x39 then some (n - 0x30)
  else if 0x41 ≤ n && n ≤ 0x46 then some (n - 0x41 + 10)
  else if 0x61 ≤ n && n ≤ 0x66 then some (n - 0x61 + 10)
  else none

/-! ### Scanning -/

/-- Where a scanner is. Units and characters read so far come latest first. -/
inductive ScanState where
  /-- Between tokens, or inside a run of characters that becomes one token. -/
  | word (run : List Char)
  | string (units : List Nat)
  /-- After a backslash in a string. -/
  | escape (units : List Nat)
  /-- Inside an escape by code: the digits still to come, and the value of those read. -/
  | hex (units : List Nat) (missing value : Nat)
  deriving DecidableEq

/-- A scanner: the tokens read so far, latest first, and where it is. -/
structure Scanner where
  tokens : List Token
  state : ScanState
  deriving DecidableEq

namespace Scanner

def isSpace (c : Char) : Bool := c == ' ' || c == '\t' || c == '\n' || c == '\x0d'

/-- The tokens with the run that ends here, if there is one. -/
def endWord (tokens : List Token) (run : List Char) : Option (List Token) :=
  if run.isEmpty then some tokens
  else (Token.ofWord? run.reverse).map fun token => token :: tokens

def step (s : Scanner) (c : Char) : Option Scanner :=
  match s.state with
  | .word run =>
    if isSpace c then (endWord s.tokens run).map fun ts => ⟨ts, .word []⟩
    else if c = '"' then (endWord s.tokens run).map fun ts => ⟨ts, .string []⟩
    else match Token.ofPunctuation? c with
      | some token => (endWord s.tokens run).map fun ts => ⟨token :: ts, .word []⟩
      | none => some ⟨s.tokens, .word (c :: run)⟩
  | .string units =>
    if c = '"' then
      let text := (joinUnits? units.reverse).map String.ofList
      some ⟨.string text :: s.tokens, .word []⟩
    else if c = '\\' then some ⟨s.tokens, .escape units⟩
    else if c.toNat < 0x20 then none
    else some ⟨s.tokens, .string (c.toNat :: units)⟩
  | .escape units =>
    if c = 'u' then some ⟨s.tokens, .hex units 4 0⟩
    else (escaped? c).map fun unit => ⟨s.tokens, .string (unit :: units)⟩
  | .hex units missing value =>
    (hexValue? c).map fun digit =>
      let value := 16 * value + digit
      if missing ≤ 1 then ⟨s.tokens, .string (value :: units)⟩
      else ⟨s.tokens, .hex units (missing - 1) value⟩

/-- The tokens read when the text ends here. -/
def finish (s : Scanner) : Option (List Token) :=
  match s.state with
  | .word run => (endWord s.tokens run).map List.reverse
  | _ => none

end Scanner

def scan (cs : List Char) : Option (List Token) := do
  let s ← cs.foldlM Scanner.step ⟨[], .word []⟩
  s.finish

end BoundSql.Json
