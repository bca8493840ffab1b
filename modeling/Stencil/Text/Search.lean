/-!
# Searching texts

Positions count characters. `find?` gives the first occurrence; replacing and splitting are defined
from it.
-/

namespace Stencil.Text

/-- The first position at which `pattern` occurs; the empty pattern occurs at 0. -/
def find? (pattern : List Char) : List Char → Option Nat
  | [] => if pattern.isEmpty then some 0 else none
  | c :: cs =>
    if pattern.isPrefixOf (c :: cs) then some 0 else (find? pattern cs).map (· + 1)

theorem find?_add_length_le {pattern cs : List Char} {k : Nat} (h : find? pattern cs = some k) :
    k + pattern.length ≤ cs.length := by
  induction cs generalizing k with
  | nil =>
    obtain ⟨rfl, rfl⟩ : pattern = [] ∧ 0 = k := by simpa [find?] using h
    simp
  | cons c cs ih =>
    rw [find?] at h
    split at h
    next hp =>
      obtain rfl := Option.some.inj h
      simpa using (List.isPrefixOf_iff_prefix.1 hp).length_le
    next =>
      obtain ⟨j, hj, rfl⟩ := Option.map_eq_some_iff.1 h
      have := ih hj
      simp only [List.length_cons]
      omega

/-- With the first occurrence of `pattern` replaced. -/
def replaceFirst (pattern replacement cs : List Char) : List Char :=
  match find? pattern cs with
  | some k => cs.take k ++ replacement ++ cs.drop (k + pattern.length)
  | none => cs

/-- The parts between the occurrences of `separator`; the empty separator parts all characters. -/
def split (separator cs : List Char) : List (List Char) :=
  if h : separator = [] then
    cs.map ([·])
  else
    match hk : find? separator cs with
    | some k =>
      have := find?_add_length_le hk
      have := List.length_pos_iff.2 h
      cs.take k :: split separator (cs.drop (k + separator.length))
    | none => [cs]
termination_by cs.length
decreasing_by
  simp only [List.length_drop]
  omega

end Stencil.Text
