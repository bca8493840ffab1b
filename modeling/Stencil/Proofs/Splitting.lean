import Mathlib
import Stencil.Proofs.Searching
/-!
# Splitting and joining texts

Joining the parts of a text gives the text back, whatever the separator (`intercalate_split`). Splitting at one
character gives back the texts that were joined by it, as long as it stands in none of them (`split_intercalate`).
-/

namespace Stencil

namespace Text

variable {separator cs : List Char} {k : Nat}

/-! ## One part after another -/

theorem split_nil (cs : List Char) : split [] cs = cs.map ([·]) := by
  rw [split, dif_pos rfl]

theorem split_of_find?_some (hne : separator ≠ []) (h : find? separator cs = some k) :
    split separator cs = cs.take k :: split separator (cs.drop (k + separator.length)) := by
  rw [split, dif_neg hne]
  split
  next _ hk =>
    obtain rfl := Option.some.inj (hk.symm.trans h)
    rfl
  next hk => cases hk.symm.trans h

theorem split_of_find?_none (hne : separator ≠ []) (h : find? separator cs = none) : split separator cs = [cs] := by
  rw [split, dif_neg hne]
  split
  next hk => cases hk.symm.trans h
  next => rfl

theorem split_ne_nil (hne : separator ≠ []) (cs : List Char) : split separator cs ≠ [] := by
  cases h : find? separator cs with
  | none => simp [split_of_find?_none hne h]
  | some k => simp [split_of_find?_some hne h]

/-! ## Joining what was split -/

theorem OccursAt.cut (h : OccursAt separator cs k) : cs.take k ++ separator ++ cs.drop (k + separator.length) = cs := by
  obtain ⟨front, back, rfl, rfl, -⟩ := h
  simp

theorem intercalate_cons_of_ne_nil {parts : List (List Char)} (h : parts ≠ []) (part : List Char) :
    separator.intercalate (part :: parts) = part ++ separator ++ separator.intercalate parts := by
  obtain ⟨next, rest, rfl⟩ := List.exists_cons_of_ne_nil h
  exact List.intercalate_cons_cons

theorem intercalate_singletons (cs : List Char) : List.intercalate [] (cs.map ([·])) = cs := by
  induction cs with
  | nil => rfl
  | cons c rest ih =>
    cases rest with
    | nil => rfl
    | cons d rest => rw [List.map_cons, intercalate_cons_of_ne_nil (by simp), ih, List.append_nil, List.singleton_append]

theorem intercalate_split (separator cs : List Char) : separator.intercalate (split separator cs) = cs := by
  by_cases hne : separator = []
  · rw [hne, split_nil, intercalate_singletons]
  · -- what follows an occurrence is shorter, since the separator is not empty
    induction hlen : cs.length using Nat.strong_induction_on generalizing cs with
    | _ n ih =>
      cases hk : find? separator cs with
      | none => rw [split_of_find?_none hne hk, List.intercalate_singleton]
      | some k =>
        have hle := find?_add_length_le hk
        have hpos := List.length_pos_iff.2 hne
        have hrest := ih _ (by rw [List.length_drop]; omega) (cs.drop (k + separator.length)) rfl
        rw [split_of_find?_some hne hk, intercalate_cons_of_ne_nil (split_ne_nil hne _), hrest]
        exact (occursAt_of_find? hk).1.cut

/-! ## Splitting what was joined -/

theorem occursAt_singleton {c : Char} : OccursAt [c] cs k ↔ cs[k]? = some c := by
  rw [occursAt_iff, List.length_singleton]
  constructor
  · rintro ⟨-, h⟩
    have hhead := congrArg List.head? h
    simpa [List.head?_take, List.head?_drop] using hhead
  · intro h
    obtain ⟨hlt, rfl⟩ := List.getElem?_eq_some_iff.1 h
    refine ⟨hlt, ?_⟩
    rw [List.drop_eq_getElem_cons hlt]
    rfl

theorem find?_of_not_mem {c : Char} (h : c ∉ cs) : find? [c] cs = none :=
  find?_eq_none_iff.2 fun _ hj => h (List.mem_of_getElem? (occursAt_singleton.1 hj))

theorem find?_append_of_not_mem {c : Char} (h : c ∉ cs) (rest : List Char) :
    find? [c] (cs ++ [c] ++ rest) = some cs.length := by
  refine find?_eq_some_iff.2 ⟨occursAt_singleton.2 (by simp), fun j hj hat => ?_⟩
  have hget := occursAt_singleton.1 hat
  rw [List.append_assoc, List.getElem?_append_left hj] at hget
  exact h (List.mem_of_getElem? hget)

theorem split_intercalate {c : Char} {texts : List (List Char)} (hne : texts ≠ []) (h : ∀ t ∈ texts, c ∉ t) :
    split [c] (List.intercalate [c] texts) = texts := by
  induction texts with
  | nil => exact absurd rfl hne
  | cons t rest ih =>
    obtain ⟨ht, hrest⟩ := List.forall_mem_cons.1 h
    by_cases hnil : rest = []
    · rw [hnil, List.intercalate_singleton, split_of_find?_none (by simp) (find?_of_not_mem ht)]
    · rw [intercalate_cons_of_ne_nil hnil, split_of_find?_some (by simp) (find?_append_of_not_mem ht _)]
      simp [ih hnil hrest]

end Text

/-! ## The methods -/

theorem callMethod_split (s p : String) : callMethod (.string s) "split" [.string p] =
    .ok (.array (((Text.split p.toList s.toList).map .ofList).map .string)) := by
  rw [List.map_map]
  exact callMethod_text .split s _

theorem callMethod_join (texts : List String) (p : String) :
    callMethod (.array (texts.map .string)) "join" [.string p] = .ok (.string (p.intercalate texts)) := by
  have hjoin : callMethod (.array (texts.map .string)) "join" [.string p] =
      .ok (.string ((String.ofList p.toList).intercalate ((texts.map .string).map Value.text))) :=
    callMethod_array .join _ _
  have htexts : Value.text ∘ Value.string = id := by
    funext t
    rw [Function.comp_apply, Value.text, id]
  rw [hjoin, String.ofList_toList, List.map_map, htexts, List.map_id]

/--
The parts of a text joined by the separator are the text, and texts joined by a character that stands in none of
them are the parts at that character.
-/
theorem split_join_inverse (s p : String) (c : Char) (texts : List String) :
    (∃ parts : List String, callMethod (.string s) "split" [.string p] = .ok (.array (parts.map .string)) ∧
      callMethod (.array (parts.map .string)) "join" [.string p] = .ok (.string s)) ∧
    (texts ≠ [] → (∀ t ∈ texts, c ∉ t.toList) →
      ∃ joined, callMethod (.array (texts.map .string)) "join" [.string (.singleton c)] = .ok (.string joined) ∧
        callMethod (.string joined) "split" [.string (.singleton c)] = .ok (.array (texts.map .string))) := by
  constructor
  · refine ⟨_, callMethod_split s p, ?_⟩
    rw [callMethod_join, Except.ok.injEq, Value.string.injEq, ← String.toList_inj, String.toList_intercalate,
      List.map_map, String.toList_comp_ofList, List.map_id, Text.intercalate_split]
  · intro hne hfree
    refine ⟨_, callMethod_join texts _, ?_⟩
    have hsplit : Text.split [c] (List.intercalate [c] (texts.map String.toList)) = texts.map String.toList :=
      Text.split_intercalate (by simpa using hne) (by simpa using hfree)
    have hback : (texts.map String.toList).map String.ofList = texts := by
      rw [List.map_map, String.ofList_comp_toList, List.map_id]
    rw [callMethod_split, String.toList_intercalate, String.toList_singleton, hsplit, hback]

theorem split_join_inverse_adjacent :
    (["", "é", ""] : List String) ≠ [] ∧ (∀ t ∈ ["", "é", ""], ',' ∉ t.toList) ∧
    (∃ joined, callMethod (.array [.string "", .string "é", .string ""]) "join" [.string ","] = .ok (.string joined) ∧
      callMethod (.string joined) "split" [.string ","] = .ok (.array [.string "", .string "é", .string ""])) := by
  have hfree : ∀ t ∈ ["", "é", ""], ',' ∉ t.toList := by decide
  exact ⟨by decide, hfree, (split_join_inverse "" "" ',' ["", "é", ""]).2 (by decide) hfree⟩

end Stencil
