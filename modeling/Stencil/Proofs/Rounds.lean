import Stencil.Proofs.Runs
/-!
# Runs under other limits and rounds

`Step.run_congr` compares two runs of one program that differ in the iteration limit or in the rounds
their loops are given: a relation that holds of single rounds, and of quiet runs with themselves, holds
of the runs of a program. With it, more rounds do not change a run that comes to its end, so that a
render either ends with one result (`Program.Ends`, `Program.Renders`) or runs out of any number of rounds.
-/

namespace Stencil

/-! ## Quiet runs -/

section Quiet
variable {α : Type}

/-- The run takes no round of a loop and does not run out of rounds. -/
def Quiet (x : Exec α) : Prop := ∀ k, Keeps (fun m : Machine => m.iterations = k) (· ≠ .exhausted) x

/-- Runs on slots take no rounds. -/
theorem Exec.eval_quiet {run : Value → Eval α} (h : ∀ model, Keeps (fun _ => True) (· ≠ .exhausted) (run model)) :
    Quiet (Exec.eval run) := by
  intro k m hm
  have hr := h m.model m.slots trivial
  unfold Exec.eval
  cases hx : run m.model m.slots with
  | ok a slots => simpa [hx] using hm
  | error halt slots =>
    rw [hx] at hr
    exact ⟨hm, hr.2⟩

theorem Eval.get_unexhausted (s : Nat) : Keeps (fun _ => True) (· ≠ .exhausted) (Eval.get s) :=
  Eval.get_keeps (by simp)

theorem Eval.set_unexhausted (s : Nat) (v : Value) : Keeps (fun _ => True) (· ≠ .exhausted) (Eval.set s v) :=
  Eval.set_keeps (by simp) fun _ _ => trivial

theorem Eval.reset_unexhausted (locals : List Nat) :
    Keeps (fun _ => True) (· ≠ .exhausted) (Eval.reset locals) :=
  Eval.reset_keeps fun s _ => Eval.set_unexhausted s _

theorem Term.run_quiet (e : Term) : Quiet e.run :=
  Exec.eval_quiet fun _ => Term.eval_keeps (by simp) (fun x _ => Eval.get_unexhausted x.slot)
    (fun x v _ => Eval.set_unexhausted x.slot v) e
    (Term.every_of_forall (fun _ => trivial) (fun _ => trivial) e)

theorem set_quiet (s : Nat) (v : Value) : Quiet (Exec.eval fun _ => Eval.set s v) :=
  Exec.eval_quiet fun _ => Eval.set_unexhausted s v

theorem reset_quiet (locals : List Nat) : Quiet (Exec.eval fun _ => Eval.reset locals) :=
  Exec.eval_quiet fun _ => Eval.reset_unexhausted locals

theorem write_quiet (s : String) : Quiet (Exec.write s) := fun _ _ hm => hm

theorem ofExcept_quiet (r : Except Fault α) : Quiet (Exec.ofExcept r) := by
  intro k
  cases r with
  | ok a => exact .pure a
  | error f => exact .throw (by simp)

theorem store_quiet (place : Place) (v : Value) : Quiet (Exec.store place v) := fun k =>
  Exec.store_keeps (by simp) (fun x _ => Exec.eval_quiet (fun _ => Eval.get_unexhausted x.slot) k)
    (fun x v _ => set_quiet x.slot v k) (fun _ _ _ _ hm => hm) v

end Quiet

/-! ## Two runs of one program -/

/-- What a relation between runs under two limits and two numbers of rounds has to allow. -/
structure Congruence (Q : (α : Type) → Exec α → Exec α → Prop) (limit limit' : Option UInt64)
    (rounds rounds' : Nat) : Prop where
  quiet : ∀ {α : Type} {x : Exec α}, Quiet x → Q α x x
  bind : ∀ {α β : Type} {x y : Exec α} {f g : α → Exec β},
    Q α x y → (∀ a, Q β (f a) (g a)) → Q β (x >>= f) (y >>= g)
  tick : Q Unit (Exec.tick limit) (Exec.tick limit')
  loop : ∀ {test test' : Exec Bool} {rest rest' : Exec Unit}, Q Bool test test' → Q Unit rest rest' →
    Q Unit (Exec.loop test (do Exec.tick limit; rest) rounds) (Exec.loop test' (do Exec.tick limit'; rest') rounds')

section Congruence
variable {Q : (α : Type) → Exec α → Exec α → Prop} {limit limit' : Option UInt64} {rounds rounds' : Nat}

theorem Congruence.pure (h : Congruence Q limit limit' rounds rounds') {α : Type} (a : α) :
    Q α (Pure.pure a) (Pure.pure a) :=
  h.quiet fun _ => .pure a

theorem Congruence.discard (h : Congruence Q limit limit' rounds rounds') (e : Term) :
    Q Unit (Functor.discard e.run) (Functor.discard e.run) :=
  h.quiet fun k => (e.run_quiet k).discard

theorem Congruence.forM (h : Congruence Q limit limit' rounds rounds') {α : Type} {f g : α → Exec Unit}
    (hf : ∀ a, Q Unit (f a) (g a)) (l : List α) : Q Unit (l.forM f) (l.forM g) := by
  induction l with
  | nil => exact h.pure ()
  | cons a l ih => exact h.bind (hf a) fun _ => ih

mutual

/-- Runs of a step are related when its parts can be. -/
theorem Step.run_congr (h : Congruence Q limit limit' rounds rounds') (text : String) :
    ∀ step : Step, Q Unit (step.run ⟨text, limit⟩ rounds) (step.run ⟨text, limit'⟩ rounds')
  | .write s => h.quiet (write_quiet s)
  | .emit e => h.bind (h.quiet e.run_quiet) fun _ => h.quiet (write_quiet _)
  | .declare x e | .assign x e => h.bind (h.quiet e.run_quiet) fun v => h.quiet (set_quiet x.slot v)
  | .store place e => h.bind (h.quiet e.run_quiet) fun v => h.quiet (store_quiet place v)
  | .eval e => h.discard e
  | .block body => Block.run_congr h text body
  | .when condition body => by
    refine h.bind (h.quiet condition.run_quiet) fun v => ?_
    cases v.isTruthy with
    | true => exact Block.run_congr h text body
    | false => exact h.pure ()
  | .choose condition body otherwise => by
    refine h.bind (h.quiet condition.run_quiet) fun v => ?_
    cases v.isTruthy with
    | true => exact Block.run_congr h text body
    | false => exact Block.run_congr h text otherwise
  | .loop locals initial condition update body => by
    refine h.bind (h.quiet (reset_quiet locals)) fun _ => h.bind (Step.run_congr h text initial) fun _ => ?_
    refine h.loop (h.bind (h.quiet condition.run_quiet) fun _ => h.pure _) ?_
    exact h.bind (Block.run_congr h text body) fun _ => Step.run_congr h text update
  | .each x collection body => by
    refine h.bind (h.quiet collection.run_quiet) fun v => h.bind (h.quiet (ofExcept_quiet v.items)) fun items => ?_
    exact h.forM (fun item => h.bind h.tick fun _ => h.bind (h.quiet (set_quiet x.slot item)) fun _ =>
      Block.run_congr h text body) items
  | .switch subject body => h.bind (h.discard subject) fun _ => Block.run_congr h text body
  | .label _ none => h.pure ()
  | .label _ (some guard) => h.discard guard

theorem Block.run_congr (h : Congruence Q limit limit' rounds rounds') (text : String) :
    ∀ b : Block, Q Unit (b.run ⟨text, limit⟩ rounds) (b.run ⟨text, limit'⟩ rounds')
  | .mk locals steps => h.bind (h.quiet (reset_quiet locals)) fun _ => Step.runAll_congr h text steps

theorem Step.runAll_congr (h : Congruence Q limit limit' rounds rounds') (text : String) :
    ∀ steps : List Step, Q Unit (Step.runAll ⟨text, limit⟩ rounds steps) (Step.runAll ⟨text, limit'⟩ rounds' steps)
  | [] => h.pure ()
  | step :: rest => h.bind (Step.run_congr h text step) fun _ => Step.runAll_congr h text rest

end

end Congruence

/-! ## More rounds -/

/-- The second run does what the first does, unless that runs out of rounds. -/
def Outlasts (α : Type) (x y : Exec α) : Prop := ∀ m, (∃ m', x m = .error .exhausted m') ∨ y m = x m

theorem Outlasts.bind {α β : Type} {x y : Exec α} {f g : α → Exec β} (hx : Outlasts α x y)
    (hf : ∀ a, Outlasts β (f a) (g a)) : Outlasts β (x >>= f) (y >>= g) := by
  intro m
  rcases hx m with ⟨m', he⟩ | hy
  · exact .inl ⟨m', bind_of_error he⟩
  · cases hxm : x m with
    | ok a m' =>
      rw [bind_of_ok hxm, bind_of_ok (hy.trans hxm)]
      exact hf a m'
    | error halt m' =>
      rw [bind_of_error hxm, bind_of_error (hy.trans hxm)]
      exact .inr rfl

theorem Outlasts.loop {test test' : Exec Bool} {round round' : Exec Unit} (ht : Outlasts Bool test test')
    (hr : Outlasts Unit round round') {rounds rounds' : Nat} (h : rounds ≤ rounds') :
    Outlasts Unit (Exec.loop test round rounds) (Exec.loop test' round' rounds') := by
  induction rounds generalizing rounds' with
  | zero => exact fun m => .inl ⟨m, rfl⟩
  | succ rounds ih =>
    -- the longer run has a round left wherever the shorter one has
    obtain ⟨more, rfl⟩ : ∃ more, rounds' = more + 1 := ⟨rounds' - 1, by omega⟩
    refine .bind ht fun b => ?_
    cases b with
    | true => exact .bind hr fun _ => ih (by omega)
    | false => exact fun _ => .inr rfl

theorem outlasts_congruence (limit : Option UInt64) {rounds rounds' : Nat} (h : rounds ≤ rounds') :
    Congruence Outlasts limit limit rounds rounds' where
  quiet _ _ := .inr rfl
  bind := Outlasts.bind
  tick _ := .inr rfl
  loop ht hr := .loop ht (.bind (fun _ => .inr rfl) fun _ => hr) h

/-! ## How renders end -/

section Ends
variable {program : Program} {options : Options} {model : Value}

/-- The state in which a run stops. -/
def endState {ε σ α : Type} : EStateM.Result ε σ α → σ
  | .ok _ s | .error _ s => s

/-- The result of a render and the number of loop rounds taken. -/
def Program.outcome (program : Program) (options : Options) (rounds : Nat) (model : Value) :
    Except Halt String × Nat :=
  (program.render options rounds model,
    (endState (program.body.run options rounds (program.start model))).iterations)

/-- Given enough rounds for each loop, the render has the result after `k` rounds of its loops in all. -/
def Program.Ends (program : Program) (options : Options) (model : Value) (result : Except Halt String)
    (k : Nat) : Prop :=
  result ≠ .error .exhausted ∧ ∃ n, ∀ rounds, n ≤ rounds → program.outcome options rounds model = (result, k)

/-- A render ends in one way at most. -/
theorem Program.Ends.unique {result result' : Except Halt String} {k k' : Nat}
    (h : program.Ends options model result k) (h' : program.Ends options model result' k') :
    result = result' ∧ k = k' := by
  obtain ⟨-, n, hn⟩ := h
  obtain ⟨-, n', hn'⟩ := h'
  have heq := (hn (max n n') (by omega)).symm.trans (hn' (max n n') (by omega))
  simpa using heq

/-- A render that does not run out of the rounds it is given has come to its end. -/
theorem Program.ends_of_outcome {rounds k : Nat} {result : Except Halt String}
    (h : program.outcome options rounds model = (result, k)) (hr : result ≠ .error .exhausted) :
    program.Ends options model result k := by
  refine ⟨hr, rounds, fun more hm => ?_⟩
  have hrun := Block.run_congr (outlasts_congruence options.iterationLimit hm) options.undefinedText program.body
    (program.start model)
  rcases hrun with ⟨m', he⟩ | hsame
  · simp only [Program.outcome, Program.render, he, Prod.mk.injEq] at h
    exact (hr h.1.symm).elim
  · rw [← h]
    simp only [Program.outcome, Program.render, hsame]

theorem Program.ends_of_render {result : Except Halt String} (rounds : Nat)
    (h : program.render options rounds model = result) (hr : result ≠ .error .exhausted) :
    ∃ k, program.Ends options model result k :=
  ⟨_, Program.ends_of_outcome (Prod.ext h rfl) hr⟩

/-- A render that has no end runs out of any number of rounds. -/
theorem Program.exhausted_of_not_ends (h : ¬∃ result k, program.Ends options model result k) (rounds : Nat) :
    program.render options rounds model = .error .exhausted :=
  Classical.byContradiction fun hr => h ⟨_, _, Program.ends_of_outcome rfl hr⟩

/-- The render comes to its end with the result, after some number of rounds. -/
def Program.Renders (program : Program) (options : Options) (model : Value) (result : Except Halt String) : Prop :=
  ∃ k, program.Ends options model result k

theorem Program.renders_iff {result : Except Halt String} :
    program.Renders options model result ↔
      result ≠ .error .exhausted ∧ ∃ rounds, program.render options rounds model = result := by
  constructor
  · rintro ⟨k, hr, n, hn⟩
    exact ⟨hr, n, congrArg Prod.fst (hn n (Nat.le_refl n))⟩
  · rintro ⟨hr, rounds, h⟩
    exact Program.ends_of_render rounds h hr

theorem Program.Renders.unique {result result' : Except Halt String} (h : program.Renders options model result)
    (h' : program.Renders options model result') : result = result' := by
  obtain ⟨k, hk⟩ := h
  obtain ⟨k', hk'⟩ := h'
  exact (hk.unique hk').1

end Ends

end Stencil
