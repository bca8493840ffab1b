import Stencil.Number.Binary64
/-!
# Reading numerals

Integers are an optional sign and digits; decimals may also have a point and an exponent and denote
the nearest double.
-/

namespace Stencil

/-- The sign in front of a numeral (whether it is a minus) and what follows it. -/
def splitSign : List Char → Bool × List Char
  | '-' :: cs => (true, cs)
  | '+' :: cs => (false, cs)
  | cs => (false, cs)

/-- One or more digits, and nothing else. -/
def natural? (cs : List Char) : Option Nat :=
  if !cs.isEmpty && cs.all Char.isDigit then some (Nat.ofDigitChars 10 cs 0) else none

def hexDigit? (c : Char) : Option Nat :=
  if c.isDigit then some (c.toNat - '0'.toNat)
  else if 'a' ≤ c ∧ c ≤ 'f' then some (c.toNat - 'a'.toNat + 10)
  else if 'A' ≤ c ∧ c ≤ 'F' then some (c.toNat - 'A'.toNat + 10)
  else none

/-- One or more hexadecimal digits of either case, after an optional plus. -/
def readHex? (cs : List Char) : Option Nat := do
  let digits := if let '+' :: digits := cs then digits else cs
  if digits.isEmpty then none
  let values ← digits.mapM hexDigit?
  return values.foldl (16 * · + ·) 0

/-- The 64-bit integer equal to `n`, if there is one. -/
def int64? (n : Int) : Option Int64 :=
  if Int64.minValue.toInt ≤ n ∧ n ≤ Int64.maxValue.toInt then some (Int64.ofInt n) else none

/-- A signed 64-bit integer; either sign may be written. -/
def readInt64? (cs : List Char) : Option Int64 := do
  let (negative, digits) := splitSign cs
  let n ← natural? digits
  int64? (if negative then -n else n)

/-- A natural number below `2⁶⁴`; a plus may be written, a minus not. -/
def readWord? (cs : List Char) : Option Nat := do
  let digits := if let '+' :: digits := cs then digits else cs
  let n ← natural? digits
  if n < 2 ^ 64 then some n else none

/-- The number `digits * 10 ^ exponent` with a sign. -/
structure Decimal where
  negative : Bool
  digits : Nat
  exponent : Int

namespace Decimal

/-- What may follow the digits of a decimal: nothing, or `e` and a signed number. -/
def exponent? : List Char → Option Int
  | [] => some 0
  | c :: cs =>
    if c = 'e' ∨ c = 'E' then
      let (negative, digits) := splitSign cs
      (natural? digits).map fun n => if negative then -n else n
    else
      none

/-- Reads a decimal: digits on at least one side of an optional point, then an optional exponent. -/
def read? (cs : List Char) : Option Decimal := do
  let (negative, cs) := splitSign cs
  let whole := cs.takeWhile Char.isDigit
  let (fraction, tail) :=
    match cs.dropWhile Char.isDigit with
    | '.' :: cs => (cs.takeWhile Char.isDigit, cs.dropWhile Char.isDigit)
    | cs => ([], cs)
  if whole.isEmpty && fraction.isEmpty then none
  let exponent ← exponent? tail
  some ⟨negative, Nat.ofDigitChars 10 (whole ++ fraction) 0, exponent - fraction.length⟩

/--
The nearest double. Decimals of 400 places and more before or after the point are out of its range,
so their powers of ten are never computed.
-/
def toBinary64 (d : Decimal) : Binary64 :=
  let places := d.exponent + (Nat.toDigits 10 d.digits).length
  if d.digits = 0 ∨ places < -400 then
    .zero d.negative
  else if places > 400 then
    .infinite d.negative
  else
    match d.exponent with
    | .ofNat e => .ofQuotient d.negative (d.digits * 10 ^ e * Binary64.one) 1
    | .negSucc e => .ofQuotient d.negative (d.digits * Binary64.one) (10 ^ (e + 1))

end Decimal

/-- The double nearest to a decimal numeral. -/
def readBinary64? (cs : List Char) : Option Binary64 := (Decimal.read? cs).map Decimal.toBinary64

end Stencil
