import Mathlib
import Stencil.Proofs.Ranges
/-!
# Searching texts

All searches in a text meet on the first occurrence of the pattern. `find?` gives its position, if there is one
(`find?_eq_some_iff`, `find?_eq_none_iff`); whether a text includes, starts with or ends with the pattern, and
what replacing it leaves, can be told from that position and from parts of the text.
-/

namespace Stencil

/-! ## Occurrences -/

namespace Text

/-- `pattern` stands in `cs` from position `k` on. -/
def OccursAt (pattern cs : List Char) (k : Nat) : Prop := IsRange cs k (k + pattern.length) pattern

variable {pattern cs : List Char} {k : Nat}

theorem occursAt_iff :
    OccursAt pattern cs k ↔ k + pattern.length ≤ cs.length ∧ (cs.drop k).take pattern.length = pattern := by
  rw [OccursAt, isRange_iff, Nat.add_sub_cancel_left, eq_comm]
  simp

theorem occursAt_zero : OccursAt pattern cs 0 ↔ pattern <+: cs := by
  constructor
  · rintro ⟨front, back, rfl, hfront, -⟩
    rw [List.length_eq_zero_iff.1 hfront]
    exact ⟨back, rfl⟩
  · rintro ⟨back, rfl⟩
    exact ⟨[], back, rfl, rfl, rfl⟩

theorem occursAt_succ {c : Char} : OccursAt pattern (c :: cs) (k + 1) ↔ OccursAt pattern cs k := by
  rw [occursAt_iff, occursAt_iff, List.drop_succ_cons, List.length_cons]
  refine and_congr_left' ?_
  omega

theorem occursAt_of_find? (h : find? pattern cs = some k) : OccursAt pattern cs k ∧ ∀ j < k, ¬OccursAt pattern cs j := by
  induction cs generalizing k with
  | nil =>
    obtain ⟨rfl, rfl⟩ : pattern = [] ∧ 0 = k := by simpa [find?] using h
    exact ⟨occursAt_zero.2 List.prefix_rfl, by simp⟩
  | cons c cs ih =>
    rw [find?] at h
    split at h
    next hp =>
      obtain rfl := Option.some.inj h
      exact ⟨occursAt_zero.2 (List.isPrefixOf_iff_prefix.1 hp), by simp⟩
    next hp =>
      -- the pattern is no prefix, so every occurrence is one in the rest, one position later
      obtain ⟨i, hi, rfl⟩ := Option.map_eq_some_iff.1 h
      obtain ⟨hat, hfirst⟩ := ih hi
      refine ⟨occursAt_succ.2 hat, fun j hj => ?_⟩
      cases j with
      | zero => exact mt occursAt_zero.1 (mt List.isPrefixOf_iff_prefix.2 hp)
      | succ j => exact mt occursAt_succ.1 (hfirst j (by omega))

theorem not_occursAt_of_find? (h : find? pattern cs = none) (j : Nat) : ¬OccursAt pattern cs j := by
  induction cs generalizing j with
  | nil =>
    have hne : pattern ≠ [] := by simpa [find?] using h
    rw [occursAt_iff, List.length_nil]
    have := List.length_pos_iff.2 hne
    omega
  | cons c cs ih =>
    rw [find?] at h
    split at h
    next => cases h
    next hp =>
      cases j with
      | zero => exact mt occursAt_zero.1 (mt List.isPrefixOf_iff_prefix.2 hp)
      | succ j => exact mt occursAt_succ.1 (ih (Option.map_eq_none_iff.1 h) j)

theorem find?_eq_none_iff : find? pattern cs = none ↔ ∀ j, ¬OccursAt pattern cs j := by
  refine ⟨not_occursAt_of_find?, fun h => ?_⟩
  cases hk : find? pattern cs with
  | none => rfl
  | some k => exact absurd (occursAt_of_find? hk).1 (h k)

theorem find?_eq_some_iff : find? pattern cs = some k ↔ OccursAt pattern cs k ∧ ∀ j < k, ¬OccursAt pattern cs j := by
  refine ⟨occursAt_of_find?, fun ⟨hat, hfirst⟩ => ?_⟩
  cases hi : find? pattern cs with
  | none => exact absurd hat (not_occursAt_of_find? hi k)
  | some i =>
    obtain ⟨hat', hfirst'⟩ := occursAt_of_find? hi
    have hle : i ≤ k := not_lt.1 fun hlt => hfirst' k hlt hat
    have hge : k ≤ i := not_lt.1 fun hlt => hfirst i hlt hat'
    rw [Nat.le_antisymm hle hge]

theorem isPrefixOf_iff_find? : pattern.isPrefixOf cs ↔ find? pattern cs = some 0 := by
  rw [List.isPrefixOf_iff_prefix, find?_eq_some_iff, occursAt_zero]
  simp

/-- The suffixes of a text are what it has from some position on. -/
theorem isSuffixOf_iff_drop : pattern.isSuffixOf cs ↔
    pattern.length ≤ cs.length ∧ cs.drop (cs.length - pattern.length) = pattern := by
  rw [List.isSuffixOf_iff_suffix, List.suffix_iff_eq_drop]
  refine ⟨fun h => ⟨?_, h.symm⟩, fun h => h.2.symm⟩
  rw [h, List.length_drop]
  omega

end Text

/-! ## Parts of texts at positions that exist -/

def Value.ofInt (n : Int) : Value := .integer (.ofInt n)

section Parts
variable {s : String} {i j : Nat}

theorem clamp_ofInt {length : Nat} (hl : length < 2 ^ 63) (hi : i ≤ length) : Text.clamp length (.ofInt i) = i := by
  rw [Text.clamp, Int64.toInt_ofInt_of_le (by omega) (by omega), Int.toNat_natCast, min_eq_left hi]

theorem substring_at (hs : s.length < 2 ^ 63) (hij : i ≤ j) (hj : j ≤ s.length) :
    callMethod (.string s) "substring" [.ofInt i, .ofInt j] = .ok (.ofChars ((s.toList.drop i).take (j - i))) := by
  rw [← String.length_toList] at hs hj
  rw [Value.ofInt, Value.ofInt, callMethod_substring, Text.substring, Option.map_some, Option.map_some,
    Option.getD_some, Option.getD_some, clamp_ofInt hs (hij.trans hj), clamp_ofInt hs hj, Text.between,
    min_eq_left hij, max_eq_right hij]

theorem substring_from (hs : s.length < 2 ^ 63) (hi : i ≤ s.length) :
    callMethod (.string s) "substring" [.ofInt i] = .ok (.ofChars (s.toList.drop i)) := by
  rw [← String.length_toList] at hs hi
  rw [Value.ofInt, callMethod_substring_from, Text.substring, Option.map_some, Option.getD_some, clamp_ofInt hs hi,
    Option.map_none, Option.getD_none, Text.between_length hi]

theorem ok_ofChars_iff {cs : List Char} {p : String} :
    (Except.ok (.ofChars cs) : Except Fault Value) = .ok (.string p) ↔ cs = p.toList := by
  rw [Except.ok.injEq, Value.ofChars, Value.string.injEq, String.ofList_eq]

theorem substring_at_iff {p : String} (hs : s.length < 2 ^ 63) (hi : i + p.length ≤ s.length) :
    callMethod (.string s) "substring" [.ofInt i, .ofInt (i + p.length)] = .ok (.string p) ↔
      Text.OccursAt p.toList s.toList i := by
  rw [← Nat.cast_add, substring_at hs (by omega) hi, Nat.add_sub_cancel_left, ok_ofChars_iff, Text.occursAt_iff,
    String.length_toList, String.length_toList, and_iff_right hi]

end Parts

/-! ## Agreement of the searches -/

/--
The searches for `p` in `s` agree on `k`, the answer of `indexOf`: its first position, or -1 if `p` does not occur.
Positions and lengths count characters, and `r` stands for `p` once it is replaced.
-/
structure SearchesAgree (s p r : String) (k : Int) : Prop where
  indexOf : callMethod (.string s) "indexOf" [.string p] = .ok (.ofInt k)
  range : -1 ≤ k ∧ k ≤ s.length
  includes : callMethod (.string s) "includes" [.string p] = .ok (.bool (k ≠ -1))
  found : 0 ≤ k → callMethod (.string s) "substring" [.ofInt k, .ofInt (k + p.length)] = .ok (.string p)
  first : ∀ j : Int, 0 ≤ j → j < k →
    callMethod (.string s) "substring" [.ofInt j, .ofInt (j + p.length)] ≠ .ok (.string p)
  absent : k = -1 → ∀ j : Int, 0 ≤ j → j + p.length ≤ s.length →
    callMethod (.string s) "substring" [.ofInt j, .ofInt (j + p.length)] ≠ .ok (.string p)
  startsWith : callMethod (.string s) "startsWith" [.string p] = .ok (.bool (k = 0))
  endsWith : ∃ b, callMethod (.string s) "endsWith" [.string p] = .ok (.bool b) ∧
    (b ↔ p.length ≤ s.length ∧
      callMethod (.string s) "substring" [.ofInt (s.length - p.length)] = .ok (.string p))
  replaced : 0 ≤ k → ∃ front back,
    callMethod (.string s) "substring" [.ofInt 0, .ofInt k] = .ok (.string front) ∧
    callMethod (.string s) "substring" [.ofInt (k + p.length)] = .ok (.string back) ∧
    callMethod (.string s) "replace" [.string p, .string r] = .ok (.string (front ++ r ++ back))
  kept : k = -1 → callMethod (.string s) "replace" [.string p, .string r] = .ok (.string s)

section Agreement
variable {s p : String}

theorem callMethod_indexOf (s p : String) : callMethod (.string s) "indexOf" [.string p] =
    .ok (.integer (Text.indexOf s.toList p.toList)) := callMethod_text .indexOf s _

theorem callMethod_includes (s p : String) : callMethod (.string s) "includes" [.string p] =
    .ok (.bool (Text.find? p.toList s.toList).isSome) := callMethod_text .includes s _

theorem callMethod_startsWith (s p : String) : callMethod (.string s) "startsWith" [.string p] =
    .ok (.bool (p.toList.isPrefixOf s.toList)) := callMethod_text .startsWith s _

theorem callMethod_replace (s p r : String) : callMethod (.string s) "replace" [.string p, .string r] =
    .ok (.ofChars (Text.replaceFirst p.toList r.toList s.toList)) := callMethod_text .replace s _

theorem endsWith_iff (hs : s.length < 2 ^ 63) : ∃ b, callMethod (.string s) "endsWith" [.string p] = .ok (.bool b) ∧
    (b ↔ p.length ≤ s.length ∧
      callMethod (.string s) "substring" [.ofInt (s.length - p.length)] = .ok (.string p)) := by
  refine ⟨_, callMethod_text .endsWith s _, ?_⟩
  rw [Text.isSuffixOf_iff_drop, String.length_toList, String.length_toList]
  refine and_congr_right fun hle => ?_
  rw [← Nat.cast_sub hle, substring_from hs (Nat.sub_le ..), ok_ofChars_iff]

theorem searchesAgree_of_find?_none (hs : s.length < 2 ^ 63) (h : Text.find? p.toList s.toList = none) (r : String) :
    SearchesAgree s p r (-1) where
  indexOf := by
    rw [callMethod_indexOf, Text.indexOf, h]
    rfl
  range := by omega
  includes := by
    rw [callMethod_includes, h]
    rfl
  found := by simp
  first j := by omega
  absent _ j hj hle := by
    obtain ⟨i, rfl⟩ := Int.eq_ofNat_of_zero_le hj
    exact mt (substring_at_iff hs (by omega)).1 (Text.not_occursAt_of_find? h i)
  startsWith := by
    rw [callMethod_startsWith, Bool.eq_false_iff.2 (mt Text.isPrefixOf_iff_find?.1 (by simp [h]))]
    rfl
  endsWith := endsWith_iff hs
  replaced := by simp
  kept _ := by
    rw [callMethod_replace, Text.replaceFirst, h, ok_ofChars_iff]

/-- The part before the first occurrence, the replacement and the part after it. -/
theorem replace_at {k : Nat} (hs : s.length < 2 ^ 63) (h : Text.find? p.toList s.toList = some k) (r : String) :
    ∃ front back,
      callMethod (.string s) "substring" [.ofInt 0, .ofInt k] = .ok (.string front) ∧
      callMethod (.string s) "substring" [.ofInt (k + p.length)] = .ok (.string back) ∧
      callMethod (.string s) "replace" [.string p, .string r] = .ok (.string (front ++ r ++ back)) := by
  have hle := Text.find?_add_length_le h
  rw [String.length_toList, String.length_toList] at hle
  refine ⟨.ofList (s.toList.take k), .ofList (s.toList.drop (k + p.length)), ?_, ?_, ?_⟩
  · exact substring_at hs (Nat.zero_le k) (by omega)
  · rw [← Nat.cast_add]
    exact substring_from hs hle
  · rw [callMethod_replace, Text.replaceFirst, h, ok_ofChars_iff]
    simp only [String.toList_append, String.toList_ofList, String.length_toList]

theorem searchesAgree_of_find?_some {k : Nat} (hs : s.length < 2 ^ 63) (h : Text.find? p.toList s.toList = some k)
    (r : String) : SearchesAgree s p r k := by
  obtain ⟨hat, hfirst⟩ := Text.occursAt_of_find? h
  have hle := Text.find?_add_length_le h
  rw [String.length_toList, String.length_toList] at hle
  exact {
    indexOf := by rw [callMethod_indexOf, Text.indexOf, h, Value.ofInt, Int64.ofInt_eq_ofNat]
    range := by omega
    includes := by
      rw [callMethod_includes, h, Option.isSome_some, decide_eq_true (show (k : Int) ≠ -1 by omega)]
    found := fun _ => (substring_at_iff hs hle).2 hat
    first := fun j hj hlt => by
      obtain ⟨i, rfl⟩ := Int.eq_ofNat_of_zero_le hj
      exact mt (substring_at_iff hs (by omega)).1 (hfirst i (by omega))
    absent := by omega
    startsWith := by
      have hzero : p.toList.isPrefixOf s.toList = decide ((k : Int) = 0) := by
        rw [Bool.eq_iff_iff, Text.isPrefixOf_iff_find?, h]
        simp
      rw [callMethod_startsWith, hzero]
    endsWith := endsWith_iff hs
    replaced := fun _ => replace_at hs h r
    kept := by omega }

end Agreement

/--
In every text whose positions fit 64 bits, the searches for a pattern agree on its first position, also for the
empty pattern.
-/
theorem searches_agree (s p r : String) (hs : s.length < 2 ^ 63) : ∃ k, SearchesAgree s p r k := by
  cases h : Text.find? p.toList s.toList with
  | none => exact ⟨-1, searchesAgree_of_find?_none hs h r⟩
  | some k => exact ⟨k, searchesAgree_of_find?_some hs h r⟩

theorem searches_agree_overlapping :
    "nanané".length < 2 ^ 63 ∧ SearchesAgree "nanané" "nané" "-" 2 := by
  have hs : "nanané".length < 2 ^ 63 := by decide
  obtain ⟨k, h⟩ := searches_agree "nanané" "nané" "-" hs
  have hindex : Text.indexOf "nanané".toList "nané".toList = 2 := by decide
  have hvalue : Value.ofInt k = .integer 2 :=
    Except.ok.inj (h.indexOf.symm.trans (by rw [callMethod_indexOf, hindex]))
  have hint := congrArg Int64.toInt (Value.integer.inj hvalue)
  rw [Int64.toInt_ofInt_of_le (by have := h.range; omega) (by have := h.range; omega)] at hint
  obtain rfl : k = 2 := hint
  exact ⟨hs, h⟩

end Stencil
