import Mathlib
import Stencil.Proofs.Causes
import Stencil.Proofs.Rounds
/-!
# What a run can change

What a run can change is read off the program: the slots that its steps set and its terms update (`footprint`), the
model if a step stores to it, the count of rounds if a step has any. Everything else is after a run as it was before
it, and text is only added, whether the run comes to its end or halts on the way (`Step.run_follows`). A term changes
nothing but the slots that it updates.
-/

namespace Stencil

/-! ## Slots that occur in a program -/

/-- The slot that the term itself updates, not those of the terms inside it. -/
def Term.updatedSlot? : Term → Option Nat
  | .update _ x => some x.slot
  | _ => none

/-- The slots of the updates that occur in the term. -/
def Term.updated (e : Term) : List Nat := e.parts.filterMap Term.updatedSlot?

def Root.slots : Root → List Nat
  | .variable x => [x.slot]
  | .model _ => []

/-- The slots that the step itself sets: its target, its loop variable, and what it resets before its bodies run. -/
def Step.targets : Step → List Nat
  | .write _ | .emit _ | .eval _ | .label _ _ => []
  | .declare x _ | .assign x _ => [x.slot]
  | .store place _ => place.root.slots
  | .block body | .when _ body | .switch _ body => body.locals
  | .choose _ body otherwise => body.locals ++ otherwise.locals
  | .loop locals _ _ _ body => locals ++ body.locals
  | .each x _ body => x.slot :: body.locals

/-- The slots that the steps themselves set and those that their terms update. -/
def footprint (steps : List Step) : List Nat :=
  steps.flatMap fun step => step.targets ++ step.terms.flatMap Term.updated

def Step.StoresToModel : Step → Prop
  | .store ⟨.model _, _⟩ _ => True
  | _ => False

theorem targets_subset_footprint {steps : List Step} {step : Step} (hs : step ∈ steps) :
    step.targets ⊆ footprint steps :=
  fun _ hslot => List.mem_flatMap.2 ⟨step, hs, List.mem_append_left _ hslot⟩

theorem updated_subset_footprint {steps : List Step} {step : Step} (hs : step ∈ steps) {e : Term}
    (he : e ∈ step.terms) : e.updated ⊆ footprint steps :=
  fun _ hslot => List.mem_flatMap.2 ⟨step, hs, List.mem_append_right _ (List.mem_flatMap.2 ⟨e, he, hslot⟩)⟩

/-! ## Slots -/

/-- The slots are as many as before, and all but those of the list are as before. -/
structure SameBut (changed : List Nat) (slots slots' : Slots) : Prop where
  size : slots'.size = slots.size
  same : ∀ slot ∉ changed, slots'[slot]? = slots[slot]?

section Slots
variable {changed : List Nat} {slots slots' : Slots}

theorem SameBut.refl (changed : List Nat) (slots : Slots) : SameBut changed slots slots := ⟨rfl, fun _ _ => rfl⟩

theorem SameBut.eq (h : SameBut [] slots slots') : slots' = slots :=
  Array.ext_getElem? fun slot => h.same slot List.not_mem_nil

theorem SameBut.set (h : SameBut changed slots slots') {slot : Nat} (hs : slot ∈ changed) (v : Value) :
    SameBut changed slots (slots'.setIfInBounds slot v) where
  size := by rw [Array.size_setIfInBounds, h.size]
  same other ho := by
    have hne : slot ≠ other := by
      rintro rfl
      exact ho hs
    rw [Array.getElem?_setIfInBounds_ne hne, h.same other ho]

theorem Eval.set_sameBut {slot : Nat} (hs : slot ∈ changed) (v : Value) :
    Keeps (SameBut changed slots) (fun _ => True) (Eval.set slot v) :=
  Eval.set_keeps trivial fun _ h => h.set hs v

end Slots

/-! ## Terms -/

section Terms
variable {changed : List Nat}

theorem updatedSlots_append (a b : List Term) (h : (a ++ b).filterMap Term.updatedSlot? ⊆ changed) :
    a.filterMap Term.updatedSlot? ⊆ changed ∧ b.filterMap Term.updatedSlot? ⊆ changed := by
  rwa [List.filterMap_append, List.append_subset] at h

mutual

theorem Term.every_updated : ∀ e : Term, e.updated ⊆ changed → e.Every (fun _ => True) (·.slot ∈ changed)
  | .const _, _ | .model _, _ | .variable _, _ => trivial
  | .member target _, h | .unary _ target, h => Term.every_updated target h
  | .index left right, h | .binary _ left right, h => by
    obtain ⟨hl, hr⟩ := updatedSlots_append left.parts right.parts h
    exact ⟨Term.every_updated left hl, Term.every_updated right hr⟩
  | .call target _ args, h => by
    obtain ⟨ht, ha⟩ := updatedSlots_append target.parts (Term.partsArgs args) h
    exact ⟨Term.every_updated target ht, Term.everyArg_updated args ha⟩
  | .update _ x, h => ⟨trivial, h List.mem_cons_self⟩
  | .conditional condition ifTrue ifFalse, h => by
    obtain ⟨hcl, hr⟩ := updatedSlots_append (condition.parts ++ ifTrue.parts) ifFalse.parts h
    obtain ⟨hc, hl⟩ := updatedSlots_append condition.parts ifTrue.parts hcl
    exact ⟨Term.every_updated condition hc, Term.every_updated ifTrue hl, Term.every_updated ifFalse hr⟩

theorem Term.everyArg_updated : ∀ es : List Term, (Term.partsArgs es).filterMap Term.updatedSlot? ⊆ changed →
    Term.EveryArg (fun _ => True) (·.slot ∈ changed) es
  | [], _ => trivial
  | e :: rest, h => by
    obtain ⟨he, hr⟩ := updatedSlots_append e.parts (Term.partsArgs rest) h
    exact ⟨Term.every_updated e he, Term.everyArg_updated rest hr⟩

end

theorem Term.eval_sameBut {e : Term} (h : e.updated ⊆ changed) (model : Value) (slots : Slots) :
    Keeps (SameBut changed slots) (fun _ => True) (e.eval model) :=
  Term.eval_keeps (fun _ => trivial) (fun _ _ => Eval.get_keeps trivial) (fun _ v hx => Eval.set_sameBut hx v) e
    (Term.every_updated e h)

end Terms

theorem Keeps.endState {ε σ α : Type} {I : σ → Prop} {E : ε → Prop} {x : EStateM ε σ α} (h : Keeps I E x) {s : σ}
    (hs : I s) : I (endState (x s)) := by
  have hx := h s hs
  cases hr : x s with
  | ok a s' =>
    rw [hr] at hx
    exact hx
  | error e s' =>
    rw [hr] at hx
    exact hx.1

theorem Exec.endState_eval {α : Type} (run : Value → Eval α) (m : Machine) :
    endState (Exec.eval run m) = { m with slots := endState (run m.model m.slots) } := by
  unfold Exec.eval
  cases run m.model m.slots <;> rfl

theorem Term.run_sameBut (e : Term) (m : Machine) : SameBut e.updated m.slots (endState (e.run m)).slots := by
  rw [Term.run, Exec.endState_eval]
  exact (Term.eval_sameBut (List.Subset.refl _) m.model m.slots).endState (.refl _ _)

theorem Term.endState_run_of_updated {e : Term} (h : e.updated = []) (m : Machine) : endState (e.run m) = m := by
  have hslots := (h ▸ e.run_sameBut m).eq
  rw [Term.run, Exec.endState_eval] at hslots ⊢
  exact congrArg (fun slots => { m with slots }) hslots

/-! ## Steps -/

/-- What may have become of a machine after a run that is made of the given steps. -/
structure Follows (steps : List Step) (m m' : Machine) : Prop where
  output : ∃ text, m'.output = m.output ++ text
  counted : m.iterations ≤ m'.iterations
  uncounted : (∀ step ∈ steps, ¬step.HasRounds) → m'.iterations = m.iterations
  model : (∀ step ∈ steps, ¬step.StoresToModel) → m'.model = m.model
  slots : SameBut (footprint steps) m.slots m'.slots

theorem Follows.refl (steps : List Step) (m : Machine) : Follows steps m m where
  output := ⟨"", by simp⟩
  counted := Nat.le_refl _
  uncounted _ := rfl
  model _ := rfl
  slots := .refl _ _

section Steps
variable {α : Type} {steps : List Step} {start : Machine} {options : Options}

theorem Exec.eval_follows {run : Value → Eval α}
    (h : ∀ model, Keeps (SameBut (footprint steps) start.slots) (fun _ => True) (run model)) :
    Keeps (Follows steps start) (fun _ => True) (Exec.eval run) :=
  Exec.eval_keeps fun m hm slots hs => by
    have hr := h m.model slots hs.slots
    cases hx : run m.model slots with
    | ok a slots' =>
      rw [hx] at hr
      exact { hm with slots := hr }
    | error halt slots' =>
      rw [hx] at hr
      exact ⟨{ hm with slots := hr.1 }, trivial⟩

theorem Term.run_follows {step : Step} (hs : step ∈ steps) {e : Term} (he : e ∈ step.terms) :
    Keeps (Follows steps start) (fun _ => True) e.run :=
  Exec.eval_follows fun model => Term.eval_sameBut (updated_subset_footprint hs he) model _

theorem set_follows {slot : Nat} (hs : slot ∈ footprint steps) (v : Value) :
    Keeps (Follows steps start) (fun _ => True) (Exec.eval fun _ => Eval.set slot v) :=
  Exec.eval_follows fun _ => Eval.set_sameBut hs v

theorem reset_follows {locals : List Nat} (hl : locals ⊆ footprint steps) :
    Keeps (Follows steps start) (fun _ => True) (Exec.eval fun _ => Eval.reset locals) :=
  Exec.eval_follows fun _ => Eval.reset_keeps fun _ hs => Eval.set_sameBut (hl hs) _

theorem write_follows (s : String) : Keeps (Follows steps start) (fun _ => True) (Exec.write s) := by
  intro m hm
  obtain ⟨text, ht⟩ := hm.output
  exact { hm with output := ⟨text ++ s, by rw [← String.append_assoc, ← ht]⟩ }

theorem tick_follows {step : Step} (hs : step ∈ steps) (hr : step.HasRounds) (limit : Option UInt64) :
    Keeps (Follows steps start) (fun _ => True) (Exec.tick limit) := by
  refine Exec.tick_keeps (fun _ => trivial) (fun m hm => ?_) limit
  exact { hm with
    counted := Nat.le_succ_of_le hm.counted
    uncounted := fun hn => (hn step hs hr).elim }

theorem items_follows (v : Value) : Keeps (Follows steps start) (fun _ => True) (Exec.ofExcept v.items) := by
  cases v.items with
  | ok items => exact .pure items
  | error fault => exact .throw trivial

theorem store_follows {place : Place} {e : Term} (hs : .store place e ∈ steps) (v : Value) :
    Keeps (Follows steps start) (fun _ => True) (Exec.store place v) := by
  obtain ⟨root, path⟩ := place
  refine Exec.store_keeps (fun _ => trivial) (fun _ _ => Exec.eval_follows fun _ => Eval.get_keeps trivial) ?_ ?_ v
  · rintro x updated rfl
    exact set_follows (targets_subset_footprint hs List.mem_cons_self) updated
  · rintro name rfl m model hm
    exact { hm with model := fun hn => (hn _ hs trivial).elim }

mutual

/-- A step whose parts are among the given ones changes no more than they allow. -/
theorem Step.run_follows (rounds : Nat) : ∀ step : Step, step.parts ⊆ steps →
    Keeps (Follows steps start) (fun _ => True) (step.run options rounds)
  | .write s, _ => write_follows s
  | .emit e, h => .bind (Term.run_follows (h List.mem_cons_self) List.mem_cons_self) fun _ => write_follows _
  | .declare x e, h | .assign x e, h => by
    have hs := h List.mem_cons_self
    exact .bind (Term.run_follows hs List.mem_cons_self) fun v =>
      set_follows (targets_subset_footprint hs List.mem_cons_self) v
  | .store place e, h => by
    have hs := h List.mem_cons_self
    exact .bind (Term.run_follows hs List.mem_cons_self) fun v => store_follows hs v
  | .eval e, h | .label _ (some e), h => .discard (Term.run_follows (h List.mem_cons_self) List.mem_cons_self)
  | .label _ none, _ => .pure ()
  | .block body, h => by
    obtain ⟨hs, hb⟩ := List.cons_subset.1 h
    exact Block.run_follows rounds body (targets_subset_footprint hs) hb
  | .when condition body, h => by
    obtain ⟨hs, hb⟩ := List.cons_subset.1 h
    refine .bind (Term.run_follows hs List.mem_cons_self) fun v => ?_
    split
    · exact Block.run_follows rounds body (targets_subset_footprint hs) hb
    · exact .pure ()
  | .choose condition body otherwise, h => by
    obtain ⟨hs, hbo⟩ := List.cons_subset.1 h
    obtain ⟨hb, ho⟩ := List.append_subset.1 hbo
    obtain ⟨hbl, hol⟩ := List.append_subset.1 (targets_subset_footprint hs)
    refine .bind (Term.run_follows hs List.mem_cons_self) fun v => ?_
    split
    · exact Block.run_follows rounds body hbl hb
    · exact Block.run_follows rounds otherwise hol ho
  | .loop locals initial condition update body, h => by
    obtain ⟨hs, hiub⟩ := List.cons_subset.1 h
    obtain ⟨hiu, hb⟩ := List.append_subset.1 hiub
    obtain ⟨hi, hu⟩ := List.append_subset.1 hiu
    obtain ⟨hl, hbl⟩ := List.append_subset.1 (targets_subset_footprint hs)
    refine .bind (reset_follows hl) fun _ => .bind (Step.run_follows rounds initial hi) fun _ => ?_
    refine Kept.loop trivial (.bind (Term.run_follows hs List.mem_cons_self) fun _ => .pure _) ?_ rounds
    exact .bind (tick_follows hs trivial _) fun _ => .bind (Block.run_follows rounds body hbl hb) fun _ =>
      Step.run_follows rounds update hu
  | .each x collection body, h => by
    obtain ⟨hs, hb⟩ := List.cons_subset.1 h
    obtain ⟨hx, hbl⟩ := List.cons_subset.1 (targets_subset_footprint hs)
    refine .bind (Term.run_follows hs List.mem_cons_self) fun v => .bind (items_follows v) fun items => ?_
    refine .forM (fun item => .bind (tick_follows hs trivial _) fun _ => ?_) items
    exact .bind (set_follows hx item) fun _ => Block.run_follows rounds body hbl hb
  | .switch subject body, h => by
    obtain ⟨hs, hb⟩ := List.cons_subset.1 h
    exact .bind (.discard (Term.run_follows hs List.mem_cons_self)) fun _ =>
      Block.run_follows rounds body (targets_subset_footprint hs) hb

theorem Block.run_follows (rounds : Nat) : ∀ b : Block, b.locals ⊆ footprint steps → b.parts ⊆ steps →
    Keeps (Follows steps start) (fun _ => True) (b.run options rounds)
  | .mk _ inside, hl, h => .bind (reset_follows hl) fun _ => Step.runAll_follows rounds inside h

theorem Step.runAll_follows (rounds : Nat) : ∀ inside : List Step, Step.partsAll inside ⊆ steps →
    Keeps (Follows steps start) (fun _ => True) (Step.runAll options rounds inside)
  | [], _ => .pure ()
  | step :: rest, h => by
    obtain ⟨hs, hr⟩ := List.append_subset.1 h
    exact .bind (Step.run_follows rounds step hs) fun _ => Step.runAll_follows rounds rest hr

end

theorem Step.follows_endState (options : Options) (rounds : Nat) (m : Machine) (step : Step) :
    Follows step.parts m (endState (step.run options rounds m)) :=
  (Step.run_follows rounds step (List.Subset.refl _)).endState (.refl _ m)

end Steps

/--
Whether it succeeds or halts, a term leaves all but the slots that it updates as they were, and without updates it
leaves the machine as it was and would do the same again. A step or a block adds to the text and to the count of
rounds, which takes a step with rounds; it changes the model only with a step that stores to it, and of the slots
only those that its steps set or their terms update.
-/
theorem run_within_footprint (options : Options) (rounds : Nat) (m : Machine) :
    (∀ e : Term,
      (endState (e.run m)).output = m.output ∧ (endState (e.run m)).model = m.model ∧
      (endState (e.run m)).iterations = m.iterations ∧ SameBut e.updated m.slots (endState (e.run m)).slots ∧
      (e.updated = [] → endState (e.run m) = m ∧ e.run (endState (e.run m)) = e.run m)) ∧
    (∀ step : Step, Follows step.parts m (endState (step.run options rounds m))) ∧
    ∀ b : Block, Follows (Step.block b).parts m (endState (b.run options rounds m)) := by
  have hstep := Step.follows_endState options rounds m
  refine ⟨fun e => ?_, hstep, fun b => hstep (.block b)⟩
  have hrun : endState (e.run m) = { m with slots := endState (e.eval m.model m.slots) } := Exec.endState_eval e.eval m
  refine ⟨by rw [hrun], by rw [hrun], by rw [hrun], e.run_sameBut m, fun h => ?_⟩
  have hm := Term.endState_run_of_updated h m
  exact ⟨hm, congrArg e.run hm⟩

/-- Counts and writes, and halts at an array that is negated, before it comes to its last step. -/
def halfway : Step :=
  .when (.update .increment ⟨0, "i"⟩) (.mk [1] [
    .declare ⟨1, "s"⟩ (.const (.string "a")),
    .emit (.variable ⟨1, "s"⟩),
    .eval (.unary .negate (.const (.array []))),
    .assign ⟨2, "t"⟩ (.const .null)])

def beforeHalfway : Machine := ⟨#[.integer 1, .null, .null, .bool true], .null, "<", 4⟩

theorem run_within_footprint_halfway :
    (∃ slots, halfway.run default 1 beforeHalfway =
      .error (.fault (.unaryOperand .negate .array)) ⟨slots, .null, "<a", 4⟩) ∧
    footprint halfway.parts = [1, 0, 1, 2] ∧
    (endState (halfway.run default 1 beforeHalfway)).iterations = 4 ∧
    (endState (halfway.run default 1 beforeHalfway)).model = .null ∧
    (endState (halfway.run default 1 beforeHalfway)).slots[3]? = some (.bool true) ∧
    endState ((Term.variable ⟨0, "i"⟩).run beforeHalfway) = beforeHalfway := by
  obtain ⟨hterm, hstep, -⟩ := run_within_footprint default 1 beforeHalfway
  have hfootprint : footprint halfway.parts = [1, 0, 1, 2] := rfl
  have hfollows := hstep halfway
  refine ⟨⟨_, rfl⟩, hfootprint, hfollows.uncounted ?_, hfollows.model ?_, hfollows.slots.same 3 ?_, ?_⟩
  · simp [halfway, Step.parts, Block.parts, Step.partsAll, Step.HasRounds]
  · simp [halfway, Step.parts, Block.parts, Step.partsAll, Step.StoresToModel]
  · rw [hfootprint]
    decide
  · exact ((hterm (.variable ⟨0, "i"⟩)).2.2.2.2 rfl).1

end Stencil
