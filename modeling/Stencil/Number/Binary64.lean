/-!
# Double-precision numbers

A finite double is a sign and a whole number of units of `2⁻¹⁰⁷⁴`, the smallest positive double.
Every operation is exact on those units and rounds once, to the nearest double and on a tie to the
even one. There is one NaN. Main statement: `nearest_representable`, rounding lands on a double
unless it overflows.
-/

namespace Stencil

/-- `^` on natural numbers means their own power, also where a library brings in another one. -/
@[default_instance 20000]
instance (priority := 20000) natPow : Pow Nat Nat := instPowNat

/-! ## Rounding a quotient -/

/-- The integer nearest to `num / den`, the even one on a tie. -/
def roundQuotient (num den : Nat) : Nat :=
  let quotient := num / den
  match compare (2 * (num % den)) den with
  | .lt => quotient
  | .eq => quotient + quotient % 2
  | .gt => quotient + 1

theorem roundQuotient_le (num den : Nat) : roundQuotient num den ≤ num / den + 1 := by
  unfold roundQuotient
  dsimp only
  split <;> omega

theorem le_roundQuotient (num den : Nat) : num / den ≤ roundQuotient num den := by
  unfold roundQuotient
  dsimp only
  split <;> omega

namespace Binary64

/-- The number of units in one: a double `x` is `x * 2¹⁰⁷⁴` units. -/
def one : Nat := 2 ^ 1074

/-- The first magnitude, in units, that is too large for a finite double. -/
def overflow : Nat := 2 ^ 2098

/-- The magnitudes of finite doubles, in units: at most 53 significant bits, below `2¹⁰²⁴`. -/
def Representable (units : Nat) : Prop :=
  ∃ significand shift, significand < 2 ^ 53 ∧ shift ≤ 2045 ∧ units = significand * 2 ^ shift

/-- How many low bits a magnitude of this size has to leave at zero. -/
def shiftOf (units : Nat) : Nat := units.log2 - 52

/-- The magnitude nearest to `num / den` units, as if there were no largest one. -/
def nearest (num den : Nat) : Nat :=
  let shift := shiftOf (num / den)
  roundQuotient num (den * 2 ^ shift) * 2 ^ shift

theorem lt_two_pow_shiftOf (n : Nat) : n / 2 ^ shiftOf n < 2 ^ 53 := by
  rw [Nat.div_lt_iff_lt_mul (Nat.two_pow_pos _), ← Nat.pow_add]
  refine Nat.lt_of_lt_of_le Nat.lt_log2_self (Nat.pow_le_pow_right (by decide) ?_)
  unfold shiftOf
  omega

theorem two_pow_le_of_shiftOf_pos (n : Nat) (h : 0 < shiftOf n) : 2 ^ 52 ≤ n / 2 ^ shiftOf n := by
  unfold shiftOf at h ⊢
  have hn : n ≠ 0 := by rintro rfl; simp at h
  rw [Nat.le_div_iff_mul_le (Nat.two_pow_pos _), ← Nat.pow_add,
    show 52 + (n.log2 - 52) = n.log2 by omega]
  exact Nat.log2_self_le hn

theorem exponent_lt {e s m k : Nat} (hm : 2 ^ e ≤ m) (h : m * 2 ^ s < 2 ^ k) : e + s < k := by
  rw [← Nat.pow_lt_pow_iff_right (show 1 < 2 by decide), Nat.pow_add]
  exact Nat.lt_of_le_of_lt (Nat.mul_le_mul_right _ hm) h

/-- Rounding lands on a double unless it overflows. -/
theorem nearest_representable (num den : Nat) (h : nearest num den < overflow) :
    Representable (nearest num den) := by
  unfold nearest overflow at h
  unfold nearest
  dsimp only at h ⊢
  have hdiv : num / (den * 2 ^ shiftOf (num / den)) = num / den / 2 ^ shiftOf (num / den) :=
    (Nat.div_div_eq_div_mul ..).symm
  have hle := roundQuotient_le num (den * 2 ^ shiftOf (num / den))
  have hge := le_roundQuotient num (den * 2 ^ shiftOf (num / den))
  have hlt := lt_two_pow_shiftOf (num / den)
  have hpos := two_pow_le_of_shiftOf_pos (num / den)
  rw [hdiv] at hle hge
  generalize roundQuotient num (den * 2 ^ shiftOf (num / den)) = m at *
  generalize shiftOf (num / den) = s at *
  by_cases hm : m < 2 ^ 53
  · refine ⟨m, s, hm, ?_, rfl⟩
    by_cases hs : 0 < s
    · have := exponent_lt (Nat.le_trans (hpos hs) hge) h
      omega
    · omega
  · have hm : m = 2 ^ 53 := by omega
    have := exponent_lt (Nat.le_of_eq hm.symm) h
    exact ⟨2 ^ 52, s + 1, by decide, by omega, by rw [hm]; grind⟩

/-- A magnitude is a representable number of units. -/
structure Magnitude where
  units : Nat
  representable : Representable units
deriving DecidableEq

instance : Inhabited Magnitude where
  default := ⟨0, 0, 0, by decide, by decide, rfl⟩

end Binary64

/-- A double-precision number. -/
inductive Binary64 where
  | nan
  | infinite (negative : Bool)
  | finite (negative : Bool) (magnitude : Binary64.Magnitude)
deriving DecidableEq, Inhabited

namespace Binary64

/-- The double nearest to `num / den` units, infinite when it overflows. -/
def ofQuotient (negative : Bool) (num den : Nat) : Binary64 :=
  if h : nearest num den < overflow then
    .finite negative ⟨nearest num den, nearest_representable num den h⟩
  else
    .infinite negative

def zero (negative : Bool) : Binary64 := .finite negative default

/-- The double nearest to an integer. -/
def ofInt (n : Int) : Binary64 := ofQuotient (n < 0) (n.natAbs * one) 1

def ofInt64 (n : Int64) : Binary64 := ofInt n.toInt

/-! ## Bits -/

/-- Reads the interchange format: a sign bit, eleven exponent bits and 52 fraction bits. -/
def ofBits (bits : UInt64) : Binary64 :=
  let negative := 2 ^ 63 ≤ bits.toNat
  let exponent := bits.toNat / 2 ^ 52 % 2 ^ 11
  let fraction := bits.toNat % 2 ^ 52
  have hf : fraction < 2 ^ 52 := Nat.mod_lt _ (by decide)
  have he : exponent < 2 ^ 11 := Nat.mod_lt _ (by decide)
  if h : exponent = 2047 then
    if fraction = 0 then .infinite negative else .nan
  else if exponent = 0 then
    .finite negative ⟨fraction, fraction, 0, by omega, by decide, by simp⟩
  else
    .finite negative
      ⟨(2 ^ 52 + fraction) * 2 ^ (exponent - 1), 2 ^ 52 + fraction, exponent - 1, by omega, by omega, rfl⟩

/-- Writes the interchange format. -/
def toBits : Binary64 → UInt64
  | .nan => 0x7ff8000000000000
  | .infinite negative => signBit negative + 0x7ff0000000000000
  | .finite negative ⟨units, _⟩ =>
    if units < 2 ^ 52 then
      signBit negative + units.toUInt64
    else
      let shift := shiftOf units
      signBit negative + (shift * 2 ^ 52 + units / 2 ^ shift).toUInt64
where
  signBit (negative : Bool) : UInt64 := if negative then 0x8000000000000000 else 0

/-! ## Tests and conversions -/

def isNaN : Binary64 → Bool
  | .nan => true
  | _ => false

def isFinite : Binary64 → Bool
  | .finite .. => true
  | _ => false

/-- Both zeros are zero. -/
def isZero : Binary64 → Bool
  | .finite _ m => m.units == 0
  | _ => false

/-- Whether the number is finite and has no fraction. -/
def isIntegral : Binary64 → Bool
  | .finite _ m => m.units % one == 0
  | _ => false

def applySign (negative : Bool) (n : Nat) : Int := if negative then -n else n

/-- The integer part, the fraction dropped; none of NaN and the infinities. -/
def truncate? : Binary64 → Option Int
  | .finite negative m => some (applySign negative (m.units / one))
  | _ => none

/-- The integer part, held within `lo` and `hi`; zero of NaN. -/
def clampTo (lo hi : Int) : Binary64 → Int
  | .nan => 0
  | .infinite negative => if negative then lo else hi
  | .finite negative m => max lo (min hi (applySign negative (m.units / one)))

/-! ## Order -/

/-- The order of the numbers; NaN has no place in it, and the two zeros share one. -/
def compare? : Binary64 → Binary64 → Option Ordering
  | .nan, _ | _, .nan => none
  | .infinite a, .infinite b => some (compare b a)
  | .infinite a, .finite .. => some (if a then .lt else .gt)
  | .finite .., .infinite b => some (if b then .gt else .lt)
  | .finite a m, .finite b n => some (compare (applySign a m.units) (applySign b n.units))

/-- Numeric equality: NaN differs from itself and the two zeros are equal. -/
def eq (x y : Binary64) : Bool := x.compare? y == some .eq

/-! ## Arithmetic -/

def neg : Binary64 → Binary64
  | .nan => .nan
  | .infinite negative => .infinite !negative
  | .finite negative m => .finite (!negative) m

def add : Binary64 → Binary64 → Binary64
  | .nan, _ | _, .nan => .nan
  | .infinite a, .infinite b => if a == b then .infinite a else .nan
  | .infinite a, .finite .. => .infinite a
  | .finite .., .infinite b => .infinite b
  | .finite a m, .finite b n =>
    let sum := applySign a m.units + applySign b n.units
    if sum = 0 then zero (a && b) else ofQuotient (sum < 0) sum.natAbs 1

def sub (x y : Binary64) : Binary64 := x.add y.neg

def mul : Binary64 → Binary64 → Binary64
  | .nan, _ | _, .nan => .nan
  | .infinite a, .infinite b => .infinite (a != b)
  | .infinite a, .finite b m | .finite b m, .infinite a =>
    if m.units = 0 then .nan else .infinite (a != b)
  | .finite a m, .finite b n => ofQuotient (a != b) (m.units * n.units) one

def div : Binary64 → Binary64 → Binary64
  | .nan, _ | _, .nan => .nan
  | .infinite _, .infinite _ => .nan
  | .infinite a, .finite b _ => .infinite (a != b)
  | .finite a _, .infinite b => zero (a != b)
  | .finite a m, .finite b n =>
    if n.units = 0 then
      if m.units = 0 then .nan else .infinite (a != b)
    else
      ofQuotient (a != b) (m.units * one) n.units

/-- The remainder of a division truncated towards zero; it has the sign of the dividend. -/
def rem : Binary64 → Binary64 → Binary64
  | .nan, _ | _, .nan | .infinite _, _ => .nan
  | .finite a m, .infinite _ => .finite a m
  | .finite a m, .finite _ n => if n.units = 0 then .nan else ofQuotient a (m.units % n.units) 1

end Binary64

end Stencil
