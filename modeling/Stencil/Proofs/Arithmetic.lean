import Mathlib
import Stencil.Operator.Apply
/-!
# Exact arithmetic on integers

`ArithmeticOp.number?` is the number that an operator makes of two integers, a quotient being rational.
`integers_keptExact` says when the operators of a template give it: always if it is a 64-bit integer,
but for the remainder of the least integer by minus one. There the remainder is zero, but the quotient
it belongs to is too large.
-/

namespace Stencil

/-! ## Integers of 64 bits -/

theorem int64?_eq_some_iff {n : Int} {m : Int64} : int64? n = some m ↔ m.toInt = n := by
  have hlo : Int64.minValue.toInt = -2 ^ 63 := by decide
  have hhi : Int64.maxValue.toInt = 2 ^ 63 - 1 := by decide
  unfold int64?
  rw [hlo, hhi, Option.ite_none_right_eq_some, Option.some.injEq]
  constructor
  · rintro ⟨⟨hl, hr⟩, rfl⟩
    exact Int64.toInt_ofInt_of_le hl (by omega)
  · rintro rfl
    have := m.le_toInt
    have := m.toInt_lt
    exact ⟨⟨by omega, by omega⟩, Int64.ofInt_toInt m⟩

theorem exists_int64? {n : Int} (hl : -2 ^ 63 ≤ n) (hr : n < 2 ^ 63) : ∃ m, int64? n = some m :=
  ⟨.ofInt n, int64?_eq_some_iff.2 (Int64.toInt_ofInt_of_le hl hr)⟩

theorem toInt_eq_zero_iff {r : Int64} : r.toInt = 0 ↔ r = 0 := by
  rw [← Int64.toInt_inj]
  rfl

/-! ## Exact results -/

/-- A number cut to a whole one. -/
def towardsZero (q : ℚ) : Int := if 0 ≤ q then ⌊q⌋ else ⌈q⌉

/-- The number that the operator makes of two integers; division by zero makes none. -/
def ArithmeticOp.number? (l r : Int) : ArithmeticOp → Option ℚ
  | .add => some (l + r)
  | .subtract => some (l - r)
  | .multiply => some (l * r)
  | .divide => if r = 0 then none else some (l / r)
  | .remainder => if r = 0 then none else some (l - r * towardsZero (l / r))

theorem towardsZero_div_natCast (l : Int) (d : Nat) : towardsZero (l / d) = l.tdiv d := by
  unfold towardsZero
  rcases le_or_gt 0 l with hl | hl
  · have hq : (0 : ℚ) ≤ l / d := div_nonneg (by exact_mod_cast hl) d.cast_nonneg
    rw [if_pos hq, Rat.floor_intCast_div_natCast, Int.tdiv_eq_ediv_of_nonneg hl]
  · have hneg : l.tdiv d = -(-l / d) := by
      rw [← Int.tdiv_eq_ediv_of_nonneg (by omega : 0 ≤ -l), Int.neg_tdiv, Int.neg_neg]
    rcases d.eq_zero_or_pos with rfl | hd
    · simp
    · have hq : ¬ (0 : ℚ) ≤ l / d :=
        not_le.2 (div_neg_of_neg_of_pos (by exact_mod_cast hl) (by exact_mod_cast hd))
      rw [if_neg hq, Rat.ceil_intCast_div_natCast, hneg]

theorem towardsZero_div (l r : Int) : towardsZero (l / r) = l.tdiv r := by
  obtain ⟨d, rfl | rfl⟩ := r.eq_nat_or_neg
  · exact_mod_cast towardsZero_div_natCast l d
  · have hswap : (l : ℚ) / ((-(d : Int) : Int) : ℚ) = ((-l : Int) : ℚ) / d := by
      push_cast
      rw [div_neg, neg_div]
    rw [hswap, towardsZero_div_natCast, Int.tdiv_neg, Int.neg_tdiv]

/-- A quotient is an integer exactly if nothing remains. -/
theorem quotient_eq_iff {l r n : Int} (hr : r ≠ 0) :
    (l : ℚ) / r = n ↔ l.tmod r = 0 ∧ l.tdiv r = n := by
  have hr' : (r : ℚ) ≠ 0 := by exact_mod_cast hr
  rw [div_eq_iff hr']
  norm_cast
  constructor
  · rintro rfl
    exact ⟨Int.mul_tmod_left n r, Int.mul_tdiv_cancel n hr⟩
  · rintro ⟨hm, rfl⟩
    have := Int.tdiv_mul_add_tmod l r
    omega

/-- Of the quotients of 64-bit integers, cut to whole numbers, one alone is too large. -/
theorem int64?_tdiv_eq_none_iff {l r : Int64} (hr : r.toInt ≠ 0) :
    int64? (l.toInt.tdiv r.toInt) = none ↔ l = Int64.minValue ∧ r = -1 := by
  constructor
  · intro hnone
    have hlo := l.le_toInt
    have hhi := l.toInt_lt
    have hle := Int.natAbs_tdiv_le_natAbs l.toInt r.toInt
    have hbig : 2 ^ 63 ≤ l.toInt.tdiv r.toInt := by
      by_contra hq
      obtain ⟨q, hq⟩ := exists_int64? (n := l.toInt.tdiv r.toInt) (by omega) (by omega)
      simp [hq] at hnone
    -- so large a quotient is that of the least integer, and not even halved
    have hl : l.toInt = -2 ^ 63 := by omega
    have hr1 : r.toInt.natAbs = 1 := by
      by_contra hne
      have hhalf : l.toInt.natAbs / r.toInt.natAbs ≤ l.toInt.natAbs / 2 :=
        Nat.div_le_div_left (by omega) (by decide)
      have habs := Int.natAbs_tdiv l.toInt r.toInt
      change _ = l.toInt.natAbs / r.toInt.natAbs at habs
      omega
    rcases (show r.toInt = 1 ∨ r.toInt = -1 by omega) with h1 | h1
    · rw [h1, Int.tdiv_one] at hbig
      omega
    · exact ⟨Int64.toInt_inj.1 hl, Int64.toInt_inj.1 h1⟩
  · rintro ⟨rfl, rfl⟩
    decide

/-! ## What the operators give -/

/-- A result is the exact number if that is a 64-bit integer, and a double in every other case. -/
structure KeptExact (result : Option Value) (number : Option ℚ) : Prop where
  integer (n : Int64) : result = some (.integer n) ↔ number = some (n.toInt : ℚ)
  real : (∀ n : Int64, number ≠ some (n.toInt : ℚ)) → ∃ x, result = some (.real x)

theorem KeptExact.of_iff {fitting : Option Int64} {number : Option ℚ} (x : Binary64)
    (h : ∀ n : Int64, fitting = some n ↔ number = some (n.toInt : ℚ)) :
    KeptExact (some (fitting.elim (.real x) .integer)) number := by
  cases fitting with
  | none => exact ⟨fun n => by simpa using h n, fun _ => ⟨x, rfl⟩⟩
  | some m =>
    refine ⟨fun n => by simpa using h n, fun hno => ?_⟩
    exact absurd ((h m).1 rfl) (hno m)

theorem KeptExact.of_int64? {k : Int} (x : Binary64) :
    KeptExact (some ((int64? k).elim (.real x) .integer)) (some (k : ℚ)) := by
  refine .of_iff x fun n => ?_
  rw [int64?_eq_some_iff, Option.some.injEq, eq_comm]
  norm_cast

theorem apply_integers (op : ArithmeticOp) (l r : Int64) :
    ((BinaryOp.arithmetic op).apply (.integer l) (.integer r)).toOption =
      some ((op.integer? l r).elim (.real (op.real (.ofInt64 l) (.ofInt64 r))) .integer) := by
  have hjoin : ¬(op = .add ∧ ((Value.integer l).isJoined || (Value.integer r).isJoined) = true) := by
    simp [Value.isJoined]
  simp only [BinaryOp.apply, ArithmeticOp.apply, if_neg hjoin, ArithmeticOp.compute?]
  cases op.integer? l r <;> rfl

theorem integer?_eq_some_iff {op : ArithmeticOp} {l r : Int64}
    (h : ¬(op = .remainder ∧ l = Int64.minValue ∧ r = -1)) (n : Int64) :
    op.integer? l r = some n ↔ op.number? l.toInt r.toInt = some (n.toInt : ℚ) := by
  cases op with
  | add | subtract | multiply =>
    simp only [ArithmeticOp.integer?, ArithmeticOp.number?, int64?_eq_some_iff, Option.some.injEq]
    norm_cast
    exact eq_comm
  | divide =>
    simp only [ArithmeticOp.integer?, ArithmeticOp.number?]
    by_cases hr : r = 0
    · simp [hr]
    · have hr' : r.toInt ≠ 0 := mt toInt_eq_zero_iff.1 hr
      rw [if_neg hr', Option.some.injEq, quotient_eq_iff hr']
      by_cases hm : l.toInt.tmod r.toInt = 0
      · rw [if_neg (by simp [hr, hm]), int64?_eq_some_iff]
        simp [hm, eq_comm]
      · simp [hm]
  | remainder =>
    simp only [ArithmeticOp.integer?, ArithmeticOp.number?]
    by_cases hr : r = 0
    · simp [hr]
    · have hr' : r.toInt ≠ 0 := mt toInt_eq_zero_iff.1 hr
      have hq : int64? (l.toInt.tdiv r.toInt) ≠ none :=
        fun hnone => h ⟨rfl, (int64?_tdiv_eq_none_iff hr').1 hnone⟩
      rw [if_neg (by simp [hr, hq]), if_neg hr', int64?_eq_some_iff, towardsZero_div,
        Option.some.injEq, Int.tmod_def]
      norm_cast
      exact eq_comm

theorem negate_integer (n : Int64) :
    (UnaryOp.negate.apply (.integer n)).toOption =
      some ((int64? (-n.toInt)).elim (.real (Binary64.ofInt64 n).neg) .integer) := by
  simp only [UnaryOp.apply]
  cases int64? (-n.toInt) <;> rfl

theorem update_integer (op : UpdateOp) (n : Int64) :
    op.apply? (.integer n) =
      some ((int64? (n.toInt + op.delta)).elim (.real ((Binary64.ofInt64 n).add (.ofInt op.delta)))
        .integer) := by
  simp only [ UpdateOp.apply?]
  cases int64? (n.toInt + op.delta) <;> rfl

theorem least_remainder_exact :
    ArithmeticOp.remainder.number? Int64.minValue.toInt (-1 : Int64).toInt = some ((0 : Int64).toInt : ℚ) := by
  have hzero : Int64.minValue.toInt - (-1 : Int64).toInt * Int64.minValue.toInt.tdiv (-1 : Int64).toInt =
      (0 : Int64).toInt := by decide
  rw [ArithmeticOp.number?, if_neg (by decide), towardsZero_div]
  exact_mod_cast congrArg (fun n : Int => some (n : ℚ)) hzero

theorem not_keptExact_least :
    ¬KeptExact ((BinaryOp.arithmetic .remainder).apply (.integer Int64.minValue) (.integer (-1))).toOption
      (ArithmeticOp.remainder.number? Int64.minValue.toInt (-1 : Int64).toInt) := by
  intro hexact
  have hnone : ArithmeticOp.remainder.integer? Int64.minValue (-1) = none := by decide
  have hzero := (hexact.integer 0).2 least_remainder_exact
  rw [apply_integers, hnone] at hzero
  simp at hzero

/--
On integers every operator is exact as long as the result is a 64-bit integer and falls back to
doubles otherwise. The one exception is the remainder of the least integer by minus one.
-/
theorem integers_keptExact (op : ArithmeticOp) (l r : Int64) :
    (KeptExact ((BinaryOp.arithmetic op).apply (.integer l) (.integer r)).toOption (op.number? l.toInt r.toInt) ↔
      ¬(op = .remainder ∧ l = Int64.minValue ∧ r = -1)) ∧
    KeptExact (UnaryOp.negate.apply (.integer l)).toOption (some (-l.toInt)) ∧
    KeptExact ( UpdateOp.increment.apply? (.integer l)) (some (l.toInt + 1)) ∧
    KeptExact ( UpdateOp.decrement.apply? (.integer l)) (some (l.toInt - 1)) := by
  refine ⟨⟨?_, fun h => ?_⟩, ?_, ?_, ?_⟩
  · rintro hexact ⟨rfl, rfl, rfl⟩
    exact not_keptExact_least hexact
  · rw [apply_integers]
    exact .of_iff _ (integer?_eq_some_iff h)
  · rw [negate_integer]
    exact_mod_cast KeptExact.of_int64? _
  · rw [update_integer]
    exact_mod_cast KeptExact.of_int64? _
  · rw [update_integer, UpdateOp.delta, ← Int.sub_eq_add_neg]
    exact_mod_cast KeptExact.of_int64? _

/-- The least integer leaves nothing when divided by minus one, but a double is what comes out. -/
theorem least_remainder_not_keptExact :
    ¬KeptExact ((BinaryOp.arithmetic .remainder).apply (.integer Int64.minValue) (.integer (-1))).toOption
      (ArithmeticOp.remainder.number? Int64.minValue.toInt (-1 : Int64).toInt) ∧
    ArithmeticOp.remainder.number? Int64.minValue.toInt (-1 : Int64).toInt = some 0 ∧
    (BinaryOp.arithmetic .remainder).apply (.integer Int64.minValue) (.integer (-1)) =
      .ok (.real (.zero true)) := by
  have hreal : (BinaryOp.arithmetic .remainder).apply (.integer Int64.minValue) (.integer (-1)) =
      .ok (.real (.zero true)) := by
    have hrem : (Binary64.ofInt64 Int64.minValue).rem (.ofInt64 (-1)) = .zero true := by decide +kernel
    rw [← hrem]
    rfl
  exact ⟨not_keptExact_least, least_remainder_exact, hreal⟩

end Stencil
