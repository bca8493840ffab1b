import Mathlib
import Stencil.Operator.Apply
import Stencil.Proofs.Comparison
/-!
# Coherence of comparisons

Values have three equalities, each implied by the one before: of representations (`same`), of numbers by value
(`strictEq`), and with `undefined` for `null` (`looseEq`). All are symmetric and transitive, and reflexive where
no NaN occurs. The order of two values is that of their swapped pair reversed. What numbers and texts
contribute is stated of them first; arrays and objects follow by induction.
-/

namespace Stencil

/-! ## Doubles -/

namespace Binary64

theorem compare?_swap (x y : Binary64) : y.compare? x = (x.compare? y).map Ordering.swap := by
  cases x with
  | nan => cases y <;> rfl
  | infinite a =>
    cases y with
    | nan => rfl
    | infinite b => cases a <;> cases b <;> rfl
    | finite b n => cases a <;> rfl
  | finite a m =>
    cases y with
    | nan => rfl
    | infinite b => cases b <;> rfl
    | finite b n => rw [compare?, compare?, Std.OrientedOrd.eq_swap, Option.map_some]

theorem eq_comm (x y : Binary64) : x.eq y = y.eq x := by
  rw [eq, eq, compare?_swap x y]
  cases x.compare? y with
  | none => rfl
  | some o => cases o <;> rfl

theorem eq_self {x : Binary64} (h : x ≠ .nan) : x.eq x := by
  cases x with
  | nan => exact absurd rfl h
  | infinite a => cases a <;> rfl
  | finite a m => simp [eq, compare?]

theorem eq_trans {x y z : Binary64} (hxy : x.eq y) (hyz : y.eq z) : x.eq z := by
  cases x <;> cases y <;> cases z <;> simp_all [eq, compare?]

end Binary64

/-! ## Equality of representations -/

mutual

/-- NaN occurs nowhere in the value. -/
def Value.NaNFree : Value → Prop
  | .real x => x ≠ .nan
  | .array items => Value.NaNFreeItems items
  | .object fields => Value.NaNFreeFields fields
  | _ => True

def Value.NaNFreeItems : List Value → Prop
  | [] => True
  | v :: rest => v.NaNFree ∧ Value.NaNFreeItems rest

def Value.NaNFreeFields : List (String × Value) → Prop
  | [] => True
  | (_, v) :: rest => v.NaNFree ∧ Value.NaNFreeFields rest

end

namespace Value

/-- What the same values are: doubles that are equal as numbers, arrays and objects of the same values, or one value. -/
theorem same_iff {a b : Value} : a.same b ↔
    match a with
    | .real x => ∃ y, b = .real y ∧ x.eq y
    | .array xs => ∃ ys, b = .array ys ∧ sameItems xs ys
    | .object xs => ∃ ys, b = .object ys ∧ sameFields xs ys
    | a => a = b := by
  cases a <;> cases b <;> simp [same]

theorem sameItems_cons_iff {x : Value} {xs ys : List Value} :
    sameItems (x :: xs) ys ↔ ∃ y rest, ys = y :: rest ∧ x.same y ∧ sameItems xs rest := by
  cases ys <;> simp [sameItems]

theorem sameFields_cons_iff {name : String} {x : Value} {xs ys : List (String × Value)} :
    sameFields ((name, x) :: xs) ys ↔ ∃ y rest, ys = (name, y) :: rest ∧ x.same y ∧ sameFields xs rest := by
  cases ys with
  | nil => simp [sameFields]
  | cons field ys =>
    obtain ⟨other, y⟩ := field
    simp only [sameFields, Bool.and_eq_true, beq_iff_eq]
    constructor
    · rintro ⟨⟨rfl, hx⟩, hxs⟩
      exact ⟨y, ys, rfl, hx, hxs⟩
    · rintro ⟨_, _, heq, hx, hxs⟩
      cases heq
      exact ⟨⟨rfl, hx⟩, hxs⟩

mutual

theorem same_symm : ∀ {a b : Value}, a.same b → b.same a
  | .array xs, _, h => by
    obtain ⟨ys, rfl, hxy⟩ := same_iff.1 h
    exact sameItems_symm hxy
  | .object xs, _, h => by
    obtain ⟨ys, rfl, hxy⟩ := same_iff.1 h
    exact sameFields_symm hxy
  | .real x, _, h => by
    obtain ⟨y, rfl, hxy⟩ := same_iff.1 h
    rwa [same, Binary64.eq_comm]
  | .undefined, _, h | .null, _, h | .bool _, _, h | .integer _, _, h | .string _, _, h => by
    cases same_iff.1 h
    exact h

theorem sameItems_symm : ∀ {xs ys : List Value}, sameItems xs ys → sameItems ys xs
  | [], ys, h => by cases ys <;> simp_all [sameItems]
  | x :: xs, _, h => by
    obtain ⟨y, ys, rfl, hx, hxs⟩ := sameItems_cons_iff.1 h
    exact sameItems_cons_iff.2 ⟨x, xs, rfl, same_symm hx, sameItems_symm hxs⟩

theorem sameFields_symm : ∀ {xs ys : List (String × Value)}, sameFields xs ys → sameFields ys xs
  | [], ys, h => by cases ys <;> simp_all [sameFields]
  | (_, x) :: xs, _, h => by
    obtain ⟨y, ys, rfl, hx, hxs⟩ := sameFields_cons_iff.1 h
    exact sameFields_cons_iff.2 ⟨x, xs, rfl, same_symm hx, sameFields_symm hxs⟩

end

mutual

theorem same_trans : ∀ {a b c : Value}, a.same b → b.same c → a.same c
  | .array xs, _, _, hab, hbc => by
    obtain ⟨ys, rfl, hxy⟩ := same_iff.1 hab
    obtain ⟨zs, rfl, hyz⟩ := same_iff.1 hbc
    exact sameItems_trans hxy hyz
  | .object xs, _, _, hab, hbc => by
    obtain ⟨ys, rfl, hxy⟩ := same_iff.1 hab
    obtain ⟨zs, rfl, hyz⟩ := same_iff.1 hbc
    exact sameFields_trans hxy hyz
  | .real x, _, _, hab, hbc => by
    obtain ⟨y, rfl, hxy⟩ := same_iff.1 hab
    obtain ⟨z, rfl, hyz⟩ := same_iff.1 hbc
    exact Binary64.eq_trans hxy hyz
  | .undefined, _, _, hab, hbc | .null, _, _, hab, hbc | .bool _, _, _, hab, hbc | .integer _, _, _, hab, hbc
  | .string _, _, _, hab, hbc => by
    cases same_iff.1 hab
    exact hbc

theorem sameItems_trans : ∀ {xs ys zs : List Value}, sameItems xs ys → sameItems ys zs → sameItems xs zs
  | [], ys, zs, hxy, hyz => by cases ys <;> simp_all [sameItems]
  | x :: xs, _, _, hxy, hyz => by
    obtain ⟨y, ys, rfl, hx, hxs⟩ := sameItems_cons_iff.1 hxy
    obtain ⟨z, zs, rfl, hy, hys⟩ := sameItems_cons_iff.1 hyz
    exact sameItems_cons_iff.2 ⟨z, zs, rfl, same_trans hx hy, sameItems_trans hxs hys⟩

theorem sameFields_trans : ∀ {xs ys zs : List (String × Value)}, sameFields xs ys → sameFields ys zs → sameFields xs zs
  | [], ys, zs, hxy, hyz => by cases ys <;> simp_all [sameFields]
  | (_, x) :: xs, _, _, hxy, hyz => by
    obtain ⟨y, ys, rfl, hx, hxs⟩ := sameFields_cons_iff.1 hxy
    obtain ⟨z, zs, rfl, hy, hys⟩ := sameFields_cons_iff.1 hyz
    exact sameFields_cons_iff.2 ⟨z, zs, rfl, same_trans hx hy, sameFields_trans hxs hys⟩

end

mutual

theorem same_self : ∀ {a : Value}, a.NaNFree → a.same a
  | .array _, h => sameItems_self h
  | .object _, h => sameFields_self h
  | .real _, h => Binary64.eq_self h
  | .undefined, _ | .null, _ | .bool _, _ | .integer _, _ | .string _, _ => same_iff.2 rfl

theorem sameItems_self : ∀ {xs : List Value}, NaNFreeItems xs → sameItems xs xs
  | [], _ => rfl
  | x :: xs, h => sameItems_cons_iff.2 ⟨x, xs, rfl, same_self h.1, sameItems_self h.2⟩

theorem sameFields_self : ∀ {xs : List (String × Value)}, NaNFreeFields xs → sameFields xs xs
  | [], _ => rfl
  | (_, x) :: xs, h => sameFields_cons_iff.2 ⟨x, xs, rfl, same_self h.1, sameFields_self h.2⟩

end

/-! ## Equality by value -/

/-- Two numbers are equal by value, and nothing else is equal to a number. -/
theorem strictEq_iff {a b : Value} : a.strictEq b ↔
    (∃ x y, a.number? = some x ∧ b.number? = some y ∧ x.eq y) ∨
      a.number? = none ∧ b.number? = none ∧ a.same b := by
  unfold strictEq
  cases a <;> cases b <;> simp [number?, same]

theorem eq_self_of_number? {a : Value} (h : a.NaNFree) {x : Binary64} (hx : a.number? = some x) : x.eq x := by
  cases a with
  | integer n =>
    obtain ⟨m, hn, -⟩ := Binary64.ofInt64_finite n
    obtain rfl := Option.some.inj hx
    exact Binary64.eq_self (by simp [hn])
  | real y =>
    obtain rfl := Option.some.inj hx
    exact Binary64.eq_self h
  | _ => cases hx

theorem strictEq_self {a : Value} (h : a.NaNFree) : a.strictEq a := by
  rw [strictEq_iff]
  cases hn : a.number? with
  | none => exact .inr ⟨rfl, rfl, same_self h⟩
  | some x => exact .inl ⟨x, x, rfl, rfl, eq_self_of_number? h hn⟩

theorem strictEq_of_same {a b : Value} (h : a.same b) : a.strictEq b := by
  cases a with
  | integer n =>
    cases same_iff.1 h
    exact strictEq_self trivial
  | real x =>
    obtain ⟨y, rfl, hxy⟩ := same_iff.1 h
    exact hxy
  | _ => cases b <;> simp_all [same, strictEq, number?]

theorem strictEq_symm {a b : Value} (h : a.strictEq b) : b.strictEq a := by
  rw [strictEq_iff] at h ⊢
  rcases h with ⟨x, y, ha, hb, hxy⟩ | ⟨ha, hb, hab⟩
  · exact .inl ⟨y, x, hb, ha, Binary64.eq_comm x y ▸ hxy⟩
  · exact .inr ⟨hb, ha, same_symm hab⟩

theorem strictEq_trans {a b c : Value} (hab : a.strictEq b) (hbc : b.strictEq c) : a.strictEq c := by
  rw [strictEq_iff] at hab hbc ⊢
  rcases hab with ⟨x, y, ha, hb, hxy⟩ | ⟨ha, hb, hab⟩
  · rcases hbc with ⟨y', z, hb', hc, hyz⟩ | ⟨hb', -, -⟩
    · obtain rfl := Option.some.inj (hb.symm.trans hb')
      exact .inl ⟨x, z, ha, hc, Binary64.eq_trans hxy hyz⟩
    · cases hb.symm.trans hb'
  · rcases hbc with ⟨y, z, hb', -, -⟩ | ⟨-, hc, hbc⟩
    · cases hb.symm.trans hb'
    · exact .inr ⟨ha, hc, same_trans hab hbc⟩

/-! ## Missing data -/

theorem looseEq_iff {a b : Value} : a.looseEq b ↔ a.isNullish ∧ b.isNullish ∨ a.strictEq b := by
  rw [looseEq, Bool.or_eq_true, Bool.and_eq_true]

/-- What is equal to missing data is missing. -/
theorem isNullish_of_strictEq {a b : Value} (h : a.strictEq b) : a.isNullish = b.isNullish := by
  rcases strictEq_iff.1 h with ⟨x, y, ha, hb, -⟩ | ⟨-, -, hab⟩
  · cases a <;> cases b <;> simp_all [number?, isNullish]
  · cases a <;> cases b <;> simp_all [same, isNullish]

theorem looseEq_symm {a b : Value} (h : a.looseEq b) : b.looseEq a := by
  rw [looseEq_iff] at h ⊢
  exact h.imp And.symm strictEq_symm

theorem looseEq_trans {a b c : Value} (hab : a.looseEq b) (hbc : b.looseEq c) : a.looseEq c := by
  rw [looseEq_iff] at hab hbc ⊢
  rcases hab with ⟨ha, hb⟩ | hab
  · rcases hbc with ⟨-, hc⟩ | hbc
    · exact .inl ⟨ha, hc⟩
    · exact .inl ⟨ha, isNullish_of_strictEq hbc ▸ hb⟩
  · rcases hbc with ⟨hb, hc⟩ | hbc
    · exact .inl ⟨(isNullish_of_strictEq hab).trans hb, hc⟩
    · exact .inr (strictEq_trans hab hbc)

/-! ## Order -/

/-- But for two texts, values are compared by their numeric forms. -/
theorem compare?_of_not_strings {a b : Value} (h : ∀ s t, a = .string s → b ≠ .string t) :
    a.compare? b = a.toNumber?.bind fun x => b.toNumber?.bind x.compare? := by
  unfold compare?
  split
  · exact absurd rfl (h _ _ rfl)
  · rfl

theorem compare?_swap (a b : Value) : b.compare? a = (a.compare? b).map Ordering.swap := by
  by_cases h : ∃ s t, a = .string s ∧ b = .string t
  · obtain ⟨s, t, rfl, rfl⟩ := h
    rw [compare?, compare?, Std.OrientedOrd.eq_swap, Option.map_some]
  · rw [compare?_of_not_strings fun s t ha hb => h ⟨s, t, ha, hb⟩,
      compare?_of_not_strings fun s t hb ha => h ⟨t, s, ha, hb⟩]
    cases a.toNumber? with
    | none => cases b.toNumber? <;> rfl
    | some x =>
      cases b.toNumber? with
      | none => rfl
      | some y => exact Binary64.compare?_swap x y

end Value

/-- `>` and `>=` are `<` and `<=` with their operands swapped. -/
def OrderOp.swap : OrderOp → OrderOp
  | .less => .greater
  | .lessOrEqual => .greaterOrEqual
  | .greater => .less
  | .greaterOrEqual => .lessOrEqual

theorem OrderOp.swap_test (op : OrderOp) (a b : Value) : op.swap.test b a = op.test a b := by
  have h := Value.compare?_swap a b
  cases hab : a.compare? b with
  | none => cases op <;> simp [OrderOp.test, OrderOp.swap, h, hab]
  | some o => cases op <;> cases o <;> simp [OrderOp.test, OrderOp.swap, h, hab]

/--
Of the three equalities each implies the next; by value and with missing data, equality is symmetric and
transitive, and reflexive on what has no NaN in it. Two values in the other order compare the other way
round, so that `<` and `>`, and `<=` and `>=`, say the same of the two orders; and `<=` holds of what is
less or compares equal.
-/
theorem comparisons_coherent (a b c : Value) :
    ((a.same b → a.strictEq b) ∧ (a.strictEq b → a.looseEq b)) ∧
    ((a.strictEq b ↔ b.strictEq a) ∧ (a.looseEq b ↔ b.looseEq a)) ∧
    ((a.strictEq b → b.strictEq c → a.strictEq c) ∧ (a.looseEq b → b.looseEq c → a.looseEq c)) ∧
    (a.NaNFree → a.strictEq a ∧ a.looseEq a) ∧
    b.compare? a = (a.compare? b).map Ordering.swap ∧
    (BinaryOp.order .less).apply a b = (BinaryOp.order .greater).apply b a ∧
    (BinaryOp.order .lessOrEqual).apply a b = (BinaryOp.order .greaterOrEqual).apply b a ∧
    ((BinaryOp.order .lessOrEqual).apply a b = .ok (.bool true) ↔
      (BinaryOp.order .less).apply a b = .ok (.bool true) ∨ a.compare? b = some .eq) := by
  have loose {v w : Value} (h : v.strictEq w) : v.looseEq w := Value.looseEq_iff.2 (.inr h)
  refine ⟨⟨Value.strictEq_of_same, loose⟩, ⟨⟨Value.strictEq_symm, Value.strictEq_symm⟩,
    ⟨Value.looseEq_symm, Value.looseEq_symm⟩⟩, ⟨Value.strictEq_trans, Value.looseEq_trans⟩,
    fun h => ⟨Value.strictEq_self h, loose (Value.strictEq_self h)⟩, Value.compare?_swap a b, ?_, ?_, ?_⟩
  · rw [BinaryOp.apply, BinaryOp.apply, ← OrderOp.swap_test .less]
    rfl
  · rw [BinaryOp.apply, BinaryOp.apply, ← OrderOp.swap_test .lessOrEqual]
    rfl
  · simp [BinaryOp.apply, OrderOp.test]

/-- A zero of either sign in an object in an array. -/
def nestedZero (negative : Bool) : Value := .array [.object [("zero", .real (.zero negative))], .undefined]

theorem comparisons_coherent_zeros :
    ((nestedZero false).same (nestedZero true) ∧ (nestedZero false).strictEq (nestedZero true) ∧
      (nestedZero true).looseEq (nestedZero false)) ∧
    ((nestedZero false).NaNFree ∧ (nestedZero false).looseEq (nestedZero false)) ∧
    (Value.integer 0).strictEq (.real (.zero true)) ∧ (Value.real (.zero true)).strictEq (.real (.zero false)) ∧
      (Value.integer 0).strictEq (.real (.zero false)) := by
  have hsame : (nestedZero false).same (nestedZero true) := rfl
  have hfree : (nestedZero false).NaNFree := by
    simp [nestedZero, Value.NaNFree, Value.NaNFreeItems, Value.NaNFreeFields, Binary64.zero]
  have hinteger : (Value.integer 0).strictEq (.real (.zero true)) := by decide +kernel
  have hzeros : (Value.real (.zero true)).strictEq (.real (.zero false)) := rfl
  obtain ⟨⟨hstrict, hloose⟩, ⟨-, hsymm⟩, -, hself, -⟩ :=
    comparisons_coherent (nestedZero false) (nestedZero true) (nestedZero false)
  exact ⟨⟨hsame, hstrict hsame, hsymm.1 (hloose (hstrict hsame))⟩, ⟨hfree, (hself hfree).2⟩, hinteger, hzeros,
    (comparisons_coherent _ _ _).2.2.1.1 hinteger hzeros⟩

end Stencil
