import Stencil.Number.Binary64
/-!
# Writing numbers

The decimal expansion of a double is finite: one unit of `2⁻¹⁰⁷⁴` is `5¹⁰⁷⁴` units of `10⁻¹⁰⁷⁴`.
`shortest` keeps the fewest leading digits that still round to the double, `fixedPlaces` keeps a
given number of places.
-/

namespace Stencil

/-- The text of an integer. -/
def integerText (n : Int) : String :=
  let digits := Nat.toDigits 10 n.natAbs
  .ofList (if n < 0 then '-' :: digits else digits)

/-- Which of two equally near decimals is taken. -/
inductive Tie where
  | even
  | up
deriving DecidableEq

/-- The digits of `0.d₁d₂d₃… * 10 ^ point`. -/
structure Digits where
  digits : List Char
  point : Int

namespace Digits

/-- Decimal units of `10⁻¹⁰⁷⁴` in one binary unit of `2⁻¹⁰⁷⁴`. -/
def fineness : Nat := 5 ^ 1074

/-- How many digits a positive number has. It is not below `10 ^ e`, because `10³ ≤ 2¹⁰`. -/
def lengthOf (n : Nat) : Nat :=
  let e := n.log2 * 3 / 10
  e + (Nat.toDigits 10 (n / 10 ^ e)).length

/-- The digits of `n * 10 ^ e` decimal units, without zeros at the end. -/
def ofUnits (n e : Nat) : Digits :=
  let digits := Nat.toDigits 10 n
  ⟨(digits.reverse.dropWhile (· == '0')).reverse, digits.length + e - 1074⟩

/--
How many times `grid` is the decimal that rounds to the magnitude, if one of its two neighbours on the
grid does; of two that do, the nearer.
-/
def onGrid? (tie : Tie) (units grid : Nat) : Option Nat :=
  let exact := units * fineness
  let below := exact / grid
  let above := below + 1
  let roundsBack (n : Nat) := Binary64.nearest (n * grid) fineness == units
  match roundsBack below, roundsBack above with
  | false, false => none
  | true, false => some below
  | false, true => some above
  | true, true =>
    match compare (2 * (exact % grid)) grid with
    | .lt => some below
    | .gt => some above
    | .eq => some (if tie = .even ∧ below % 2 = 0 then below else above)

/-- The fewest digits that round to the magnitude; seventeen are always enough. -/
def shortest (tie : Tie) (units : Nat) : Digits :=
  let exact := units * fineness
  let exponents := (List.range 17).map fun n => lengthOf exact - 1 - n
  let found := exponents.findSome? fun e => (onGrid? tie units (10 ^ e)).map fun n => ofUnits n e
  found.getD (ofUnits exact 0)

/-- The digits before the point, at least one. -/
def whole (d : Digits) : List Char :=
  if d.point ≤ 0 then
    ['0']
  else
    d.digits.take d.point.toNat ++ List.replicate (d.point.toNat - d.digits.length) '0'

/-- The digits after the point, perhaps none. -/
def fraction (d : Digits) : List Char :=
  if d.point ≤ 0 then
    List.replicate (-d.point).toNat '0' ++ d.digits
  else
    d.digits.drop d.point.toNat

/-- Without an exponent, and without a point where there is no fraction. -/
def positional (d : Digits) : List Char :=
  if d.fraction.isEmpty then d.whole else d.whole ++ '.' :: d.fraction

/-- One digit before the point, and an exponent with its sign. -/
def scientific (d : Digits) : List Char :=
  let exponent := d.point - 1
  let sign := if exponent < 0 then '-' else '+'
  let tail := 'e' :: sign :: Nat.toDigits 10 exponent.natAbs
  match d.digits with
  | [] => '0' :: tail
  | [c] => c :: tail
  | c :: cs => c :: '.' :: cs ++ tail

end Digits

/-- A magnitude with a fixed number of places, rounded half to even; `places` is below 1075. -/
def fixedPlaces (places units : Nat) : List Char :=
  let scaled := roundQuotient (units * Digits.fineness) (10 ^ (1074 - places))
  let digits := Nat.toDigits 10 scaled
  let padded := List.replicate (places + 1 - digits.length) '0' ++ digits
  if places = 0 then
    padded
  else
    padded.take (padded.length - places) ++ '.' :: padded.drop (padded.length - places)

end Stencil
