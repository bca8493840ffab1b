import Mathlib
import Stencil.Operator.Apply
import Stencil.Value.Access
/-!
# Integers as doubles

A double is its own rounding (`nearest_of_representable`), so integers of up to 53 bits keep their value
as doubles and their order (`compare?_ofInt`). On such integers the comparisons of a template are those
of the integers, and lengths and positions count exactly.
-/

namespace Stencil

namespace Binary64

/-! ## Rounding -/

theorem roundQuotient_of_dvd {num den : Nat} (h : den ∣ num) (hd : 0 < den) : roundQuotient num den = num / den := by
  unfold roundQuotient
  rw [Nat.mod_eq_zero_of_dvd h, Nat.mul_zero, Nat.compare_eq_lt.2 hd]

theorem shiftOf_le {m s : Nat} (hm : m < 2 ^ 53) : shiftOf (m * 2 ^ s) ≤ s := by
  unfold shiftOf
  rcases Nat.eq_zero_or_pos m with rfl | hpos
  · simp
  · have hlt : m * 2 ^ s < 2 ^ (53 + s) := by
      rw [Nat.pow_add]
      exact Nat.mul_lt_mul_of_pos_right hm (Nat.two_pow_pos s)
    have hne : m * 2 ^ s ≠ 0 := Nat.mul_ne_zero (by omega) (Nat.two_pow_pos s).ne'
    have := (Nat.log2_lt hne).2 hlt
    omega

/-- A double is its own rounding. -/
theorem nearest_of_representable {units : Nat} (h : Representable units) : nearest units 1 = units := by
  obtain ⟨m, s, hm, -, rfl⟩ := h
  have hdvd : 2 ^ shiftOf (m * 2 ^ s) ∣ m * 2 ^ s := (Nat.pow_dvd_pow 2 (shiftOf_le hm)).mul_left m
  unfold nearest
  simp only [Nat.div_one, Nat.one_mul]
  rw [roundQuotient_of_dvd hdvd (Nat.two_pow_pos _), Nat.div_mul_cancel hdvd]

theorem representable_lt_overflow {units : Nat} (h : Representable units) : units < overflow := by
  obtain ⟨m, s, hm, hs, rfl⟩ := h
  unfold overflow
  calc m * 2 ^ s < 2 ^ 53 * 2 ^ s := Nat.mul_lt_mul_of_pos_right hm (Nat.two_pow_pos s)
    _ = 2 ^ (53 + s) := (Nat.pow_add 2 53 s).symm
    _ ≤ _ := Nat.pow_le_pow_right (by decide) (by omega)

/-! ## Integers -/

theorem one_pos : 0 < one := by
  unfold one
  -- keeps the power from being computed
  generalize 1074 = k
  exact Nat.two_pow_pos k

/-- Integers of up to 53 bits, and the first one beyond, are doubles. -/
theorem representable_of_le {n : Nat} (h : n ≤ 2 ^ 53) : Representable (n * one) := by
  rcases Nat.lt_or_eq_of_le h with hlt | rfl
  · exact ⟨n, 1074, hlt, by decide, rfl⟩
  · refine ⟨2 ^ 52, 1075, by decide, by decide, ?_⟩
    rw [one, Nat.pow_succ 2 52, Nat.pow_succ 2 1074, Nat.mul_assoc, Nat.mul_comm 2]

theorem ofInt_of_le {n : Int} (h : n.natAbs ≤ 2 ^ 53) :
    ofInt n = .finite (n < 0) ⟨n.natAbs * one, representable_of_le h⟩ := by
  have hr := representable_of_le h
  have hn := nearest_of_representable hr
  have hlt : nearest (n.natAbs * one) 1 < overflow := by
    rw [hn]
    exact representable_lt_overflow hr
  unfold ofInt ofQuotient
  rw [dif_pos hlt]
  simp only [hn]

theorem applySign_natAbs (n : Int) (k : Nat) : applySign (n < 0) (n.natAbs * k) = n * k := by
  unfold applySign
  by_cases h : n < 0
  · rw [if_pos (by simpa using h)]
    push_cast
    rw [abs_of_neg h]
    ring
  · rw [if_neg (by simpa using h)]
    push_cast
    rw [abs_of_nonneg (by omega)]

/-- Integers of up to 53 bits are ordered as doubles as they are by themselves. -/
theorem compare?_ofInt {m n : Int} (hm : m.natAbs ≤ 2 ^ 53) (hn : n.natAbs ≤ 2 ^ 53) :
    (ofInt m).compare? (ofInt n) = some (compare m n) := by
  have hone : (0 : Int) < one := Int.natCast_pos.2 one_pos
  rw [ofInt_of_le hm, ofInt_of_le hn]
  simp only [compare?, applySign_natAbs]
  generalize (one : Int) = k at hone
  rcases lt_trichotomy m n with h | rfl | h
  · rw [compare_lt_iff_lt.2 h, compare_lt_iff_lt.2 (Int.mul_lt_mul_of_pos_right h hone)]
  · simp
  · rw [compare_gt_iff_gt.2 h, compare_gt_iff_gt.2 (Int.mul_lt_mul_of_pos_right h hone)]

end Binary64

/-! ## Counting -/

theorem int64?_ofNat {n : Nat} (h : n < 2 ^ 63) : int64? n = some (.ofNat n) := by
  have hlo : Int64.minValue.toInt ≤ 0 := by decide
  have hhi : Int64.maxValue.toInt = 2 ^ 63 - 1 := by decide
  rw [int64?, if_pos ⟨by omega, by omega⟩, Int64.ofInt_eq_ofNat]

namespace Value

theorem position?_ofNat {n : Nat} (h : n < 2 ^ 63) : (ofNat n).position? = some n := by
  have hn := Int64.toInt_ofNat_of_lt h
  have hle : (0 : Int64) ≤ .ofNat n := by
    rw [Int64.le_iff_toInt_le, hn]
    simp
  rw [ofNat, position?, if_pos hle, hn, Int.toNat_natCast]

theorem compare?_of_number {v w : Value} {x y : Binary64} (hv : v.toNumber? = some x) (hw : w.toNumber? = some y)
    (h : ∀ s, v ≠ .string s) : v.compare? w = x.compare? y := by
  unfold compare?
  split
  · exact absurd rfl (h _)
  · rw [hv, hw]
    rfl

theorem compare?_ofNat {m n : Nat} (hm : m ≤ 2 ^ 53) (hn : n ≤ 2 ^ 53) :
    (ofNat m).compare? (ofNat n) = some (compare m n) := by
  have number {k : Nat} (hk : k ≤ 2 ^ 53) : (ofNat k).toNumber? = some (.ofInt k) := by
    rw [ofNat, toNumber?, Binary64.ofInt64, Int64.toInt_ofNat_of_lt (by omega)]
  rw [compare?_of_number (number hm) (number hn) (by simp [ofNat]),
    Binary64.compare?_ofInt (by simpa using hm) (by simpa using hn)]
  simp [compare, compareOfLessAndEq]

end Value

theorem increment_ofNat {n : Nat} (h : n + 1 < 2 ^ 63) :
    UpdateOp.increment.apply? (.ofNat n) = some (.ofNat (n + 1)) := by
  have hn := Int64.toInt_ofNat_of_lt (show n < 2 ^ 63 by omega)
  have hs : int64? ((n : Int) + 1) = some (.ofNat (n + 1)) := by exact_mod_cast int64?_ofNat h
  simp only [Value.ofNat, UpdateOp.apply?, UpdateOp.delta, hn, hs]

end Stencil
