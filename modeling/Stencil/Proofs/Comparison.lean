import Mathlib
import Stencil.Method
import Stencil.Proofs.Exactness
/-!
# Comparing integers

Integers are compared as the doubles nearest to them. Rounding keeps the order (`nearest_mono`), so
comparisons go wrong on two integers only if they are `Confused`: they differ, but their doubles do
not. `integers_compared_by_value` says so of all comparison operators and of the searches in arrays.
-/

namespace Stencil

namespace Binary64

/-! ## Rounding keeps the order -/

theorem roundQuotient_mono {m n den : Nat} (h : m ≤ n) : roundQuotient m den ≤ roundQuotient n den := by
  rcases Nat.lt_or_eq_of_le (Nat.div_le_div_right h : m / den ≤ n / den) with hlt | heq
  · calc roundQuotient m den ≤ m / den + 1 := roundQuotient_le m den
      _ ≤ n / den := hlt
      _ ≤ roundQuotient n den := le_roundQuotient n den
  · -- the same quotient, so what is left over decides
    have hm := Nat.div_add_mod m den
    have hn := Nat.div_add_mod n den
    have hmod : m % den ≤ n % den := by
      rw [heq] at hm
      omega
    unfold roundQuotient
    rw [heq]
    dsimp only
    split <;> split <;> simp_all [Nat.compare_eq_lt, Nat.compare_eq_gt] <;> omega

theorem shiftOf_mono {m n : Nat} (h : m ≤ n) : shiftOf m ≤ shiftOf n := by
  unfold shiftOf
  rw [Nat.log2_eq_log_two, Nat.log2_eq_log_two]
  exact Nat.sub_le_sub_right (Nat.log_mono_right h) 52

theorem nearest_le (n : Nat) : nearest n 1 ≤ 2 ^ 53 * 2 ^ shiftOf n := by
  have hle := roundQuotient_le n (2 ^ shiftOf n)
  have hlt := lt_two_pow_shiftOf n
  simp only [nearest, Nat.div_one, Nat.one_mul]
  exact Nat.mul_le_mul_right _ (by omega)

theorem le_nearest {n : Nat} (h : 0 < shiftOf n) : 2 ^ 52 * 2 ^ shiftOf n ≤ nearest n 1 := by
  have hge := le_roundQuotient n (2 ^ shiftOf n)
  have hle := two_pow_le_of_shiftOf_pos n h
  simp only [nearest, Nat.div_one, Nat.one_mul]
  exact Nat.mul_le_mul_right _ (by omega)

theorem nearest_mono {m n : Nat} (h : m ≤ n) : nearest m 1 ≤ nearest n 1 := by
  rcases Nat.lt_or_eq_of_le (shiftOf_mono h) with hlt | heq
  · -- a power of two lies between them
    calc nearest m 1 ≤ 2 ^ 53 * 2 ^ shiftOf m := nearest_le m
      _ = 2 ^ 52 * 2 ^ (shiftOf m + 1) := by rw [Nat.pow_succ]; omega
      _ ≤ 2 ^ 52 * 2 ^ shiftOf n := Nat.mul_le_mul_left _ (Nat.pow_le_pow_right (by decide) hlt)
      _ ≤ nearest n 1 := le_nearest (by omega)
  · simp only [nearest, Nat.div_one, Nat.one_mul]
    rw [heq]
    exact Nat.mul_le_mul_right _ (roundQuotient_mono h)

/-! ## Integers as doubles -/

/-- How many units the double nearest to an integer has, with its sign. -/
def unitsOf (n : Int) : Int := applySign (n < 0) (nearest (n.natAbs * one) 1)

theorem nearest_natAbs_mono {m n : Int} (h : m.natAbs ≤ n.natAbs) :
    nearest (m.natAbs * one) 1 ≤ nearest (n.natAbs * one) 1 :=
  nearest_mono (Nat.mul_le_mul_right one h)

theorem unitsOf_mono {m n : Int} (h : m ≤ n) : unitsOf m ≤ unitsOf n := by
  unfold unitsOf applySign
  by_cases hm : m < 0 <;> by_cases hn : n < 0
  · have := nearest_natAbs_mono (show n.natAbs ≤ m.natAbs by omega)
    simp only [hm, hn, decide_true, if_true]
    omega
  · simp only [hm, hn, decide_true, decide_false, if_true, Bool.false_eq_true, if_false]
    omega
  · omega
  · have := nearest_natAbs_mono (show m.natAbs ≤ n.natAbs by omega)
    simp only [hm, hn, decide_false, Bool.false_eq_true, if_false]
    omega

/-- Integers of 64 bits are far from overflow. -/
theorem nearest_lt_overflow {n : Nat} (h : n ≤ 2 ^ 63) : nearest (n * one) 1 < overflow := by
  have hmax : Representable (2 ^ 63 * one) := ⟨1, 63 + 1074, by decide, by decide, by
    rw [one, Nat.one_mul, Nat.pow_add]⟩
  calc nearest (n * one) 1 ≤ nearest (2 ^ 63 * one) 1 := nearest_mono (Nat.mul_le_mul_right one h)
    _ = 2 ^ 63 * one := nearest_of_representable hmax
    _ < overflow := representable_lt_overflow hmax

theorem ofInt64_finite (a : Int64) :
    ∃ m : Magnitude, ofInt64 a = .finite (a.toInt < 0) m ∧ m.units = nearest (a.toInt.natAbs * one) 1 := by
  have hlo := a.le_toInt
  have hhi := a.toInt_lt
  have hlt := nearest_lt_overflow (show a.toInt.natAbs ≤ 2 ^ 63 by omega)
  exact ⟨⟨_, nearest_representable _ _ hlt⟩, by rw [ofInt64, ofInt, ofQuotient, dif_pos hlt], rfl⟩

theorem compare?_ofInt64 (a b : Int64) :
    (ofInt64 a).compare? (ofInt64 b) = some (compare (unitsOf a.toInt) (unitsOf b.toInt)) := by
  obtain ⟨m, ha, hm⟩ := ofInt64_finite a
  obtain ⟨n, hb, hn⟩ := ofInt64_finite b
  rw [ha, hb, compare?, hm, hn, unitsOf, unitsOf]

theorem unitsOf_neg_iff {n : Int} : unitsOf n < 0 ↔ n < 0 := by
  have hone : nearest one 1 = one := by
    simpa using nearest_of_representable (representable_of_le (show 1 ≤ 2 ^ 53 by decide))
  constructor
  · intro h
    by_contra hn
    simp only [unitsOf, applySign, hn, decide_false, Bool.false_eq_true, if_false] at h
    omega
  · intro h
    have hpos : 0 < nearest (n.natAbs * one) 1 := by
      calc 0 < one := one_pos
        _ = nearest one 1 := hone.symm
        _ ≤ _ := nearest_mono (Nat.le_mul_of_pos_left one (by omega))
    simp only [unitsOf, applySign, h, decide_true, if_true]
    omega

/-- Two integers have one double exactly if they have the same number of units. -/
theorem ofInt64_eq_iff {a b : Int64} : ofInt64 a = ofInt64 b ↔ unitsOf a.toInt = unitsOf b.toInt := by
  obtain ⟨m, ha, hm⟩ := ofInt64_finite a
  obtain ⟨n, hb, hn⟩ := ofInt64_finite b
  rw [ha, hb]
  constructor
  · intro h
    obtain ⟨hsign, rfl⟩ := Binary64.finite.inj h
    rw [unitsOf, unitsOf, hsign, ← hm, ← hn]
  · intro h
    have hsign : a.toInt < 0 ↔ b.toInt < 0 := by
      rw [← unitsOf_neg_iff (n := a.toInt), h, unitsOf_neg_iff]
    have hunits : m.units = n.units := by
      rw [unitsOf, unitsOf, ← hm, ← hn] at h
      unfold applySign at h
      split at h <;> split at h <;> simp_all
    obtain ⟨_, _⟩ := m
    obtain ⟨_, _⟩ := n
    simp_all

end Binary64

/-! ## Comparison operators -/

/-- What an operator on integers says of equality. -/
def EqualityOp.holds (a b : Int) : EqualityOp → Bool
  | .equal | .strictEqual => a = b
  | .notEqual | .strictNotEqual => a ≠ b

/-- What an operator on integers says of their order. -/
def OrderOp.holds (a b : Int) : OrderOp → Bool
  | .less => a < b
  | .lessOrEqual => a ≤ b
  | .greater => a > b
  | .greaterOrEqual => a ≥ b

/-- All comparisons of two integers say what holds of their values. -/
structure ComparedByValue (a b : Int64) : Prop where
  equality (op : EqualityOp) :
    (BinaryOp.equality op).apply (.integer a) (.integer b) = .ok (.bool (op.holds a.toInt b.toInt))
  order (op : OrderOp) :
    (BinaryOp.order op).apply (.integer a) (.integer b) = .ok (.bool (op.holds a.toInt b.toInt))

/-- Two integers that comparisons take for one: they differ, but the double nearest to them is the same. -/
def Confused (a b : Int64) : Prop := a ≠ b ∧ Binary64.ofInt64 a = Binary64.ofInt64 b

instance (a b : Int64) : Decidable (Confused a b) := inferInstanceAs (Decidable (_ ∧ _))

theorem strictEq_integers (a b : Int64) :
    (Value.integer a).strictEq (.integer b) = decide (Binary64.ofInt64 a = Binary64.ofInt64 b) := by
  rw [Bool.eq_iff_iff, decide_eq_true_eq, Binary64.ofInt64_eq_iff]
  simp only [Value.strictEq, Value.number?, Binary64.eq, Binary64.compare?_ofInt64]
  simp

theorem looseEq_integers (a b : Int64) :
    (Value.integer a).looseEq (.integer b) = (Value.integer a).strictEq (.integer b) := by
  simp only [Value.looseEq, Value.isNullish, Bool.and_self, Bool.false_or]

theorem compare?_integers (a b : Int64) :
    (Value.integer a).compare? (.integer b) =
      some (compare (Binary64.unitsOf a.toInt) (Binary64.unitsOf b.toInt)) := by
  rw [Value.compare?_of_number (by rw [Value.toNumber?]) (by rw [Value.toNumber?]) (by simp),
    Binary64.compare?_ofInt64]

/-- Integers that are not confused keep their order as doubles. -/
theorem compare_unitsOf {a b : Int64} (h : ¬Confused a b) :
    compare (Binary64.unitsOf a.toInt) (Binary64.unitsOf b.toInt) = compare a.toInt b.toInt := by
  have hne (hab : a.toInt ≠ b.toInt) : Binary64.unitsOf a.toInt ≠ Binary64.unitsOf b.toInt :=
    fun hunits => h ⟨fun heq => hab (congrArg _ heq), Binary64.ofInt64_eq_iff.2 hunits⟩
  rcases lt_trichotomy a.toInt b.toInt with hlt | heq | hgt
  · have := Binary64.unitsOf_mono hlt.le
    rw [compare_lt_iff_lt.2 hlt, compare_lt_iff_lt.2 (lt_of_le_of_ne this (hne hlt.ne))]
  · rw [heq, compare_eq_iff_eq.2 rfl, compare_eq_iff_eq.2 rfl]
  · have := Binary64.unitsOf_mono hgt.le
    rw [compare_gt_iff_gt.2 hgt, compare_gt_iff_gt.2 (lt_of_le_of_ne this (hne hgt.ne').symm)]

theorem orderOp_test {v w : Value} {a b : Int} (h : v.compare? w = some (compare a b)) (op : OrderOp) :
    op.test v w = op.holds a b := by
  rcases lt_trichotomy a b with hlt | rfl | hgt
  · rw [compare_lt_iff_lt.2 hlt] at h
    cases op <;> simp [OrderOp.test, OrderOp.holds, h, hlt, hlt.le, hlt.not_gt, hlt.not_ge]
  · rw [compare_eq_iff_eq.2 rfl] at h
    cases op <;> simp [OrderOp.test, OrderOp.holds, h]
  · rw [compare_gt_iff_gt.2 hgt] at h
    cases op <;> simp [OrderOp.test, OrderOp.holds, h, hgt, hgt.le, hgt.not_gt, hgt.not_ge]

theorem comparedByValue_iff (a b : Int64) : ComparedByValue a b ↔ ¬Confused a b := by
  constructor
  · rintro hcompared ⟨hne, hdouble⟩
    have hstrict := hcompared.equality .strictEqual
    simp [BinaryOp.apply, EqualityOp.test, EqualityOp.holds, strictEq_integers, hdouble, Int64.toInt_inj,
      hne] at hstrict
  · intro h
    have heq : (Value.integer a).strictEq (.integer b) = decide (a.toInt = b.toInt) := by
      rw [strictEq_integers, decide_eq_decide, Int64.toInt_inj]
      refine ⟨fun hd => ?_, fun hab => by rw [hab]⟩
      by_contra hne
      exact h ⟨hne, hd⟩
    refine ⟨fun op => ?_, fun op => ?_⟩
    · cases op <;> simp [BinaryOp.apply, EqualityOp.test, EqualityOp.holds, looseEq_integers, heq]
    · have hcompare := compare?_integers a b
      rw [compare_unitsOf h] at hcompare
      rw [BinaryOp.apply, orderOp_test hcompare]

/-! ## Searching arrays -/

/-- Both searches in an array of integers look for the value of the needle. -/
structure FoundByValue (items : List Int64) (needle : Int64) : Prop where
  includes : callMethod (.array (items.map .integer)) "includes" [.integer needle] =
    .ok (.bool (needle ∈ items))
  indexOf : callMethod (.array (items.map .integer)) "indexOf" [.integer needle] =
    .ok (.integer ((items.idxOf? needle).elim (-1) .ofNat))

/-- Whether a search takes an item for the needle. -/
def takenFor (needle item : Int64) : Bool := Binary64.ofInt64 item = Binary64.ofInt64 needle

theorem strictEq_eq_takenFor (needle : Int64) :
    (fun item => (Value.integer item).strictEq (.integer needle)) = takenFor needle := by
  funext item
  rw [strictEq_integers, takenFor]

theorem includes_integers (items : List Int64) (needle : Int64) :
    callMethod (.array (items.map .integer)) "includes" [.integer needle] =
      .ok (.bool (items.any (takenFor needle))) := by
  have hname : ArrayMethod.ofName? "includes" = some .includes := by decide
  simp [callMethod, Value.isNullish, hname, ArrayMethod.call, List.any_map, Function.comp_def,
    strictEq_eq_takenFor, pure, Except.pure]

theorem indexOf_integers (items : List Int64) (needle : Int64) :
    callMethod (.array (items.map .integer)) "indexOf" [.integer needle] =
      .ok (.integer ((items.findIdx? (takenFor needle)).elim (-1) .ofNat)) := by
  have hname : ArrayMethod.ofName? "indexOf" = some .indexOf := by decide
  have hindex : Items.indexOf (items.map .integer) (.integer needle) =
      (items.findIdx? (takenFor needle)).elim (-1) .ofNat := by
    rw [Items.indexOf, List.findIdx?_map, Function.comp_def, strictEq_eq_takenFor]
    cases items.findIdx? (takenFor needle) <;> rfl
  simp [callMethod, Value.isNullish, hname, ArrayMethod.call, hindex, pure, Except.pure]

/-- A search finds the needle exactly if the first item it takes for the needle, if any, is the needle. -/
theorem findIdx?_takenFor_iff {items : List Int64} {needle : Int64} :
    items.findIdx? (takenFor needle) = items.idxOf? needle ↔
      ∀ x, items.find? (takenFor needle) = some x → x = needle := by
  constructor
  · intro h x hx
    rw [List.find?_eq_bind_findIdx?_getElem?, h, Option.bind_eq_some_iff] at hx
    obtain ⟨k, hk, hget⟩ := hx
    obtain ⟨hlt, heq, -⟩ := List.idxOf?_eq_some_iff.1 hk
    rw [List.getElem?_eq_getElem hlt] at hget
    exact (Option.some.inj hget).symm.trans heq
  · intro h
    induction items with
    | nil => simp
    | cons x rest ih =>
      rw [List.findIdx?_cons, List.idxOf?_cons]
      by_cases hx : takenFor needle x
      · rw [List.find?_cons_of_pos hx] at h
        rw [if_pos hx, if_pos (by simpa using h x rfl)]
      · have hne : x ≠ needle := by
          rintro rfl
          simp [takenFor] at hx
        rw [List.find?_cons_of_neg hx] at h
        rw [if_neg hx, if_neg (by simpa using hne), ih h]

theorem toInt_position {i : Option Nat} (h : ∀ k ∈ i, k < 2 ^ 63) :
    (i.elim (-1) Int64.ofNat).toInt = i.elim (-1) Nat.cast := by
  cases i with
  | none => decide
  | some k => exact Int64.toInt_ofNat_of_lt (h k rfl)

theorem position_inj {i j : Option Nat} (hi : ∀ k ∈ i, k < 2 ^ 63) (hj : ∀ k ∈ j, k < 2 ^ 63)
    (h : i.elim (-1) Int64.ofNat = j.elim (-1) Int64.ofNat) : i = j := by
  have hint := congrArg Int64.toInt h
  rw [toInt_position hi, toInt_position hj] at hint
  rcases i with _ | k <;> rcases j with _ | l
  · rfl
  · simp only [Option.elim] at hint
    omega
  · simp only [Option.elim] at hint
    omega
  · simpa using hint

theorem foundByValue_of_findIdx? {items : List Int64} {needle : Int64}
    (h : items.findIdx? (takenFor needle) = items.idxOf? needle) : FoundByValue items needle := by
  have hmem : items.any (takenFor needle) = decide (needle ∈ items) := by
    rw [← List.findIdx?_isSome, h, Bool.eq_iff_iff, decide_eq_true_eq, List.isSome_idxOf?]
  constructor
  · rw [includes_integers, hmem]
  · rw [indexOf_integers, h]

theorem findIdx?_of_foundByValue {items : List Int64} {needle : Int64} (hlen : items.length < 2 ^ 63)
    (h : FoundByValue items needle) : items.findIdx? (takenFor needle) = items.idxOf? needle := by
  have hindex := h.indexOf
  rw [indexOf_integers] at hindex
  apply position_inj _ _ (by simpa using hindex)
  · intro k hk
    obtain ⟨hlt, -⟩ := List.findIdx?_eq_some_iff_getElem.1 hk
    omega
  · intro k hk
    obtain ⟨hlt, -⟩ := List.idxOf?_eq_some_iff.1 hk
    omega

/-- Integers of up to 53 bits are never confused. -/
theorem Confused.large {a b : Int64} (h : Confused a b) :
    2 ^ 53 < a.toInt.natAbs ∨ 2 ^ 53 < b.toInt.natAbs := by
  by_contra hsmall
  push Not at hsmall
  have hcompare := Binary64.compare?_ofInt64 a b
  rw [Binary64.ofInt64_eq_iff.1 h.2, compare_eq_iff_eq.2 rfl, Binary64.ofInt64, Binary64.ofInt64,
    Binary64.compare?_ofInt hsmall.1 hsmall.2, Option.some.injEq, compare_eq_iff_eq] at hcompare
  exact h.1 (Int64.toInt_inj.1 hcompare)

/--
Two integers are compared by value exactly if they are not confused, and a needle is found by value
exactly if the first item taken for it is the needle. Integers of up to 53 bits are never confused. Only
arrays so long that positions do not fit 64 bits can hide a wrong item.
-/
theorem integers_compared_by_value (a b needle : Int64) (items : List Int64) :
    (ComparedByValue a b ↔ ¬Confused a b) ∧
    ((∀ x, items.find? (takenFor needle) = some x → x = needle) → FoundByValue items needle) ∧
    (items.length < 2 ^ 63 → FoundByValue items needle →
      ∀ x, items.find? (takenFor needle) = some x → x = needle) ∧
    (Confused a b → 2 ^ 53 < a.toInt.natAbs ∨ 2 ^ 53 < b.toInt.natAbs) :=
  ⟨comparedByValue_iff a b,
    fun h => foundByValue_of_findIdx? (findIdx?_takenFor_iff.2 h),
    fun hlen h => findIdx?_takenFor_iff.1 (findIdx?_of_foundByValue hlen h),
    Confused.large⟩

theorem integers_compared_by_value_extremes :
    ComparedByValue Int64.minValue Int64.maxValue ∧
    FoundByValue [9007199254740992, 9007199254740993] 9007199254740992 := by
  refine ⟨(integers_compared_by_value Int64.minValue Int64.maxValue 0 []).1.2 (by decide +kernel), ?_⟩
  apply (integers_compared_by_value 0 0 9007199254740992 _).2.1
  intro x hx
  rw [List.find?_cons_of_pos (by simp [takenFor])] at hx
  exact (Option.some.inj hx).symm

/-- The first two neighbours that are taken for one integer. -/
theorem neighbours_confused :
    Confused 9007199254740992 9007199254740993 ∧
    (BinaryOp.equality .strictEqual).apply (.integer 9007199254740992) (.integer 9007199254740993) =
      .ok (.bool true) ∧
    (BinaryOp.order .less).apply (.integer 9007199254740992) (.integer 9007199254740993) =
      .ok (.bool false) ∧
    callMethod (.array [.integer 9007199254740993]) "indexOf" [.integer 9007199254740992] =
      .ok (.integer 0) := by
  have hdouble : Binary64.ofInt64 9007199254740992 = Binary64.ofInt64 9007199254740993 := by decide +kernel
  refine ⟨⟨by decide, hdouble⟩, ?_, ?_, ?_⟩
  · simp only [BinaryOp.apply, EqualityOp.test, strictEq_integers, hdouble, decide_true]
  · simp only [BinaryOp.apply, OrderOp.test, compare?_integers, Binary64.ofInt64_eq_iff.1 hdouble]
    simp
  · have hfound := indexOf_integers [9007199254740993] 9007199254740992
    have htaken : takenFor 9007199254740992 9007199254740993 := by
      simp only [takenFor, hdouble, decide_true]
    rw [List.findIdx?_cons, if_pos htaken] at hfound
    exact hfound

end Stencil
