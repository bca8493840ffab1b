import Stencil.Json.Basic
import Stencil.Number.Numeral
/-!
# JSON tokens

A scanner goes over the text one character at a time; its state says what it is in the middle of.
-/

namespace Stencil.Json

/-- A token: punctuation, a string, or a word such as a number. -/
inductive Token where
  | openArray
  | closeArray
  | openObject
  | closeObject
  | comma
  | colon
  | string (s : String)
  | word (value : Json)

/-! ## Words -/

/-- The digits of a whole part: no zero in front of others. -/
def isWhole : List Char → Bool
  | [] => false
  | ['0'] => true
  | c :: cs => c.isDigit && c != '0' && cs.all Char.isDigit

/-- Whether `cs`, which follows the whole part, is an optional fraction and an optional exponent. -/
def isTail (cs : List Char) : Bool :=
  match cs with
  | '.' :: rest =>
    !(rest.takeWhile Char.isDigit).isEmpty
      && (Decimal.exponent? (rest.dropWhile Char.isDigit)).isSome
  | rest => (Decimal.exponent? rest).isSome

/-- A number; one beyond the doubles is refused. -/
def number? (cs : List Char) : Option Json :=
  let (negative, unsigned) :=
    match cs with
    | '-' :: rest => (true, rest)
    | rest => (false, rest)
  let whole := unsigned.takeWhile Char.isDigit
  let tail := unsigned.dropWhile Char.isDigit
  if isWhole whole && isTail tail then
    let n := Nat.ofDigitChars 10 whole 0
    if tail.isEmpty && !negative && n < 2 ^ 64 then
      some (.integer n)
    else if tail.isEmpty && negative && 0 < n && n ≤ 2 ^ 63 then
      some (.integer (-(n : Int)))
    else
      (readBinary64? cs).bind fun x => if x.isFinite then some (.real x) else none
  else
    none

def word? (cs : List Char) : Option Json :=
  if cs = ['n', 'u', 'l', 'l'] then some .null
  else if cs = ['t', 'r', 'u', 'e'] then some (.bool true)
  else if cs = ['f', 'a', 'l', 's', 'e'] then some (.bool false)
  else number? cs

/-! ## The scanner -/

/--
What the scanner is in the middle of. Characters read so far stand newest first; `high` is the first
half of a surrogate pair that still lacks the second.
-/
inductive Scan where
  | between
  | word (read : List Char)
  | string (read : List Char) (high : Option Nat)
  | escape (read : List Char) (high : Option Nat)
  | code (read : List Char) (high : Option Nat) (digits : List Nat)

def isSpace (c : Char) : Bool := c = ' ' || c = '\t' || c = '\n' || c = '\r'

def punctuation? (c : Char) : Option Token :=
  if c = '[' then some .openArray
  else if c = ']' then some .closeArray
  else if c = '\x7b' then some .openObject
  else if c = '\x7d' then some .closeObject
  else if c = ',' then some .comma
  else if c = ':' then some .colon
  else none

/-- The character of a one-letter escape. -/
def escaped? (c : Char) : Option Char :=
  if c = '"' || c = '\\' || c = '/' then some c
  else if c = 'b' then some '\x08'
  else if c = 'f' then some '\x0c'
  else if c = 'n' then some '\n'
  else if c = 'r' then some '\r'
  else if c = 't' then some '\t'
  else none

/-- Adds a 16-bit unit to a string, pairing surrogates. -/
def addUnit (read : List Char) (high : Option Nat) (unit : Nat) : Option Scan :=
  let isHigh := 0xd800 ≤ unit && unit < 0xdc00
  let isLow := 0xdc00 ≤ unit && unit < 0xe000
  match high with
  | none =>
    if isHigh then some (.string read (some unit))
    else if isLow then none
    else some (.string (.ofNat unit :: read) none)
  | some first =>
    if isLow then
      some (.string (.ofNat (0x10000 + (first - 0xd800) * 0x400 + (unit - 0xdc00)) :: read) none)
    else
      none

/-- One character outside of words and strings. -/
def scanBetween (done : List Token) (c : Char) : Option (Scan × List Token) :=
  if isSpace c then some (.between, done)
  else if c = '"' then some (.string [] none, done)
  else
    match punctuation? c with
    | some token => some (.between, token :: done)
    | none => some (.word [c], done)

/-- One character; finished tokens stand newest first. -/
def scan : Scan × List Token → Char → Option (Scan × List Token)
  | (.between, done), c => scanBetween done c
  | (.word read, done), c =>
    if isSpace c || c = '"' || (punctuation? c).isSome then do
      let value ← word? read.reverse
      scanBetween (.word value :: done) c
    else
      some (.word (c :: read), done)
  | (.string read high, done), c =>
    if c = '\\' then some (.escape read high, done)
    else if high.isSome || c.toNat < 0x20 then none
    else if c = '"' then some (.between, .string (.ofList read.reverse) :: done)
    else some (.string (c :: read) none, done)
  | (.escape read high, done), c =>
    if c = 'u' then some (.code read high [], done)
    else if high.isSome then none
    else (escaped? c).map fun e => (.string (e :: read) none, done)
  | (.code read high digits, done), c => do
    let digit ← hexDigit? c
    match digits with
    | [d2, d1, d0] =>
      let next ← addUnit read high (((d0 * 16 + d1) * 16 + d2) * 16 + digit)
      some (next, done)
    | _ => some (.code read high (digit :: digits), done)

/-- The tokens of a text. -/
def tokens? (cs : List Char) : Option (List Token) := do
  match ← cs.foldlM scan (.between, []) with
  | (.between, done) => some done.reverse
  | (.word read, done) => (word? read.reverse).map fun value => (.word value :: done).reverse
  | _ => none

end Stencil.Json
