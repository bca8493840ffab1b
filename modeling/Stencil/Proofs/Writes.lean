import Mathlib
import Stencil.Proofs.Compiled
/-!
# Joined writes

`joinWrites` puts the steps of a block together from the last to the first, and a write melts into the
write that comes next (`Step.before`). What it leaves has no empty write and no two writes in a row
(`joinWrites_joined`).
-/

namespace Stencil

def Step.IsWrite : Step → Prop
  | .write _ => True
  | _ => False

/-- Puts a write in front of joined steps. -/
def writeBefore (s : String) : List Step → List Step
  | .write t :: joined => .write (s ++ t) :: joined
  | joined => if s = "" then joined else .write s :: joined

/-- Puts a step in front of joined steps. -/
def Step.before : Step → List Step → List Step
  | .write s, joined => writeBefore s joined
  | step, joined => step :: joined

theorem joinWrites_cons (step : Step) (rest : List Step) :
    joinWrites (step :: rest) = step.before (joinWrites rest) := by
  cases step with
  | write s =>
    rw [joinWrites, Step.before]
    cases joinWrites rest with
    | nil => rfl
    | cons next joined => cases next <;> rfl
  | _ => rfl

theorem joinWrites_append (a b : List Step) : joinWrites (a ++ b) = a.foldr Step.before (joinWrites b) := by
  induction a with
  | nil => rfl
  | cons step a ih => rw [List.cons_append, joinWrites_cons, ih, List.foldr_cons]

theorem Step.before_of_not_write {step : Step} (h : ¬step.IsWrite) (joined : List Step) :
    step.before joined = step :: joined := by
  cases step with
  | write s => exact (h trivial).elim
  | _ => rfl

theorem writeBefore_cons {next : Step} (h : ¬next.IsWrite) (s : String) (joined : List Step) :
    writeBefore s (next :: joined) = if s = "" then next :: joined else .write s :: next :: joined := by
  cases next with
  | write t => exact (h trivial).elim
  | _ => rfl

theorem writeBefore_empty (joined : List Step) : writeBefore "" joined = joined := by
  cases joined with
  | nil => rfl
  | cons next joined => cases next <;> simp [writeBefore]

/-- Two writes in front of joined steps are one. -/
theorem writeBefore_writeBefore (s t : String) (joined : List Step) :
    writeBefore s (writeBefore t joined) = writeBefore (s ++ t) joined := by
  by_cases ht : t = ""
  · rw [ht, writeBefore_empty, String.append_empty]
  · cases joined with
    | nil => simp [writeBefore, ht]
    | cons next joined => cases next <;> simp [writeBefore, ht, String.append_assoc]

/-! ## Steps with their writes joined -/

/-- No write is empty, and no two writes stand in a row. -/
structure Joined (steps : List Step) : Prop where
  nonempty : .write "" ∉ steps
  apart : steps.IsChain fun a b => ¬(a.IsWrite ∧ b.IsWrite)

theorem Joined.nil : Joined [] := ⟨by simp, .nil⟩

theorem Joined.cons {step : Step} {steps : List Step} (h : Joined steps) (hs : step ≠ .write "")
    (ha : step.IsWrite → ∀ next ∈ steps.head?, ¬next.IsWrite) : Joined (step :: steps) where
  nonempty hm := by
    rcases List.mem_cons.1 hm with heq | hm
    · exact hs heq.symm
    · exact h.nonempty hm
  apart := List.isChain_cons.2 ⟨fun next hn hw => ha hw.1 next hn hw.2, h.apart⟩

theorem Joined.tail {step : Step} {steps : List Step} (h : Joined (step :: steps)) : Joined steps :=
  ⟨fun hm => h.nonempty (List.mem_cons_of_mem _ hm), (List.isChain_cons.1 h.apart).2⟩

/-- A write grows the write that comes next, or stands alone unless it is empty. -/
theorem Joined.writeBefore {steps : List Step} (h : Joined steps) (s : String) : Joined (writeBefore s steps) := by
  have alone (hs : s ≠ "") (hn : ∀ next ∈ steps.head?, ¬next.IsWrite) : Joined (.write s :: steps) :=
    h.cons (by simpa using hs) fun _ => hn
  cases steps with
  | nil =>
    by_cases hs : s = ""
    · simpa [Stencil.writeBefore, hs] using h
    · simpa [Stencil.writeBefore, hs] using alone hs (by simp)
  | cons next rest =>
    by_cases hw : next.IsWrite
    · cases next with
      | write t =>
        have ht : t ≠ "" := fun ht => h.nonempty (by simp [ht])
        refine h.tail.cons ?_ fun _ last hl hlw => ?_
        · simp [ht]
        · exact (List.isChain_cons.1 h.apart).1 last hl ⟨trivial, hlw⟩
      | _ => exact hw.elim
    · rw [writeBefore_cons hw]
      split
      · exact h
      · exact alone ‹_› (by simpa using hw)

theorem Joined.before {steps : List Step} (h : Joined steps) (step : Step) : Joined (step.before steps) := by
  by_cases hw : step.IsWrite
  · cases step with
    | write s => exact h.writeBefore s
    | _ => exact hw.elim
  · rw [Step.before_of_not_write hw]
    refine h.cons ?_ fun h => (hw h).elim
    rintro rfl
    exact hw trivial

theorem joinWrites_joined (steps : List Step) : Joined (joinWrites steps) := by
  induction steps with
  | nil => exact .nil
  | cons step rest ih =>
    rw [joinWrites_cons]
    exact ih.before step

end Stencil
