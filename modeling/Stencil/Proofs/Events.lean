import Mathlib
import Stencil.Proofs.Binders
/-!
# What happens in a run

A run is watched by noting what it does on its way: the scopes that it enters, the slots that it binds
and uses, the rounds that it counts. `Watched` is a run with the events that it passes from each state.
Forgetting the events gives back the run (`Block.watch_run`), so what is shown of the events of a program
is shown of its runs.
-/

namespace Stencil

/-! ## Watched runs -/

inductive Event where
  /-- A block, the head of a loop or an item is entered; it owns the slots. -/
  | enter (slots : List Nat)
  /-- A declaration, an assignment or an item gives the slot a value. -/
  | bind (slot : Nat)
  /-- The slot is read, updated or stored into. -/
  | use (slot : Nat)
  /-- A round of a loop is counted, which makes the given number. -/
  | tick (count : Nat)
deriving DecidableEq

/-- A run and the events that it passes from each state, the first one first. -/
structure Watched (σ α : Type) where
  run : EStateM Halt σ α
  events : σ → List Event

namespace Watched

variable {σ α β : Type}

/-- The events of what follows a run; nothing follows a run that halts. -/
def after (next : α → σ → List Event) : EStateM.Result Halt σ α → List Event
  | .ok a s => next a s
  | .error _ _ => []

instance : Monad (Watched σ) where
  pure a := ⟨pure a, fun _ => []⟩
  bind x f := ⟨x.run >>= fun a => (f a).run, fun s => x.events s ++ after (fun a => (f a).events) (x.run s)⟩

/-- A run in which nothing is noted. -/
def silent (run : EStateM Halt σ α) : Watched σ α := ⟨run, fun _ => []⟩

/-- A run that is one event. -/
def noting (event : Event) (run : EStateM Halt σ α) : Watched σ α := ⟨run, fun _ => [event]⟩

def tick (limit : Option UInt64) : Watched Machine Unit :=
  ⟨Exec.tick limit, fun machine => [.tick (machine.iterations + 1)]⟩

def eval (watch : Value → Watched Slots α) : Watched Machine α :=
  ⟨Exec.eval fun model => (watch model).run, fun machine => (watch machine.model).events machine.slots⟩

def loop (test : Watched Machine Bool) (round : Watched Machine Unit) : (rounds : Nat) → Watched Machine Unit
  | 0 => silent (throw .exhausted)
  | rounds + 1 => do
    if ← test then
      round
      loop test round rounds

@[simp] theorem run_pure (a : α) : (pure a : Watched σ α).run = pure a := rfl

@[simp] theorem run_bind (x : Watched σ α) (f : α → Watched σ β) :
    (x >>= f).run = x.run >>= fun a => (f a).run := rfl

@[simp] theorem run_silent (run : EStateM Halt σ α) : (silent run).run = run := rfl

@[simp] theorem run_noting (event : Event) (run : EStateM Halt σ α) : (noting event run).run = run := rfl

@[simp] theorem run_tick (limit : Option UInt64) : (tick limit).run = Exec.tick limit := rfl

@[simp] theorem run_ite (c : Prop) [Decidable c] (x y : Watched σ α) :
    (if c then x else y).run = if c then x.run else y.run := by
  split <;> rfl

@[simp] theorem run_forM (f : β → Watched σ PUnit) (l : List β) :
    (forM l f).run = forM l fun b => (f b).run := by
  induction l with
  | nil => rfl
  | cons b l ih => rw [List.forM_cons, List.forM_cons, run_bind, ih]

@[simp] theorem run_loop (test : Watched Machine Bool) (round : Watched Machine Unit) (rounds : Nat) :
    (loop test round rounds).run = Exec.loop test.run round.run rounds := by
  induction rounds with
  | zero => rfl
  | succ rounds ih => simp only [loop, Exec.loop, run_bind, run_ite, run_pure, ih]

end Watched

/-! ## Programs -/

mutual

def Term.watch (model : Value) : Term → Watched Slots Value
  | .const v => pure v
  | .variable x => .noting (.use x.slot) (Eval.get x.slot)
  | .model name => pure (modelField model name)
  | .member target name => return (← target.watch model).member name
  | .index target position => return (← target.watch model).index (← position.watch model)
  | .call target method args => do
    let v ← target.watch model
    let vs ← Term.watchArgs model args
    .silent (Eval.ofExcept (callMethod v method vs))
  | .unary op operand => do .silent (Eval.ofExcept (op.apply (← operand.watch model)))
  | .update op x => .noting (.use x.slot) ((Term.update op x).eval model)
  | .binary op left right => do
    let v ← left.watch model
    if op.isShortCircuit && !op.needsRight v then
      return v
    .silent (Eval.ofExcept (op.apply v (← right.watch model)))
  | .conditional condition ifTrue ifFalse => do
    if (← condition.watch model).isTruthy then ifTrue.watch model else ifFalse.watch model

def Term.watchArgs (model : Value) : List Term → Watched Slots (List Value)
  | [] => pure []
  | e :: rest => return (← e.watch model) :: (← Term.watchArgs model rest)

end

def Term.watchRun (e : Term) : Watched Machine Value := .eval e.watch

/-- A store into a variable uses its slot. -/
def Place.watchStore (place : Place) (v : Value) : Watched Machine Unit :=
  match place.root with
  | .variable x => .noting (.use x.slot) (Exec.store place v)
  | .model _ => .silent (Exec.store place v)

def watchBind (x : Local) (v : Value) : Watched Machine Unit :=
  .noting (.bind x.slot) (Exec.eval fun _ => Eval.set x.slot v)

/-- Entering the scope in which the steps declare their variables. -/
def watchEnter (steps : List Step) (locals : List Nat) : Watched Machine Unit :=
  .noting (.enter ((Step.declaredAll steps).map Local.slot)) (Exec.eval fun _ => Eval.reset locals)

mutual

def Step.watch (options : Options) (rounds : Nat) : Step → Watched Machine Unit
  | .write s => .silent (Exec.write s)
  | .emit e => do
    let v ← e.watchRun
    .silent (Exec.write (options.textOf v))
  | .declare x e | .assign x e => do
    let v ← e.watchRun
    watchBind x v
  | .store place e => do place.watchStore (← e.watchRun)
  | .eval e => do
    let _ ← e.watchRun
  | .block body => body.watch options rounds
  | .when condition body => do
    if (← condition.watchRun).isTruthy then body.watch options rounds
  | .choose condition body otherwise => do
    if (← condition.watchRun).isTruthy then body.watch options rounds else otherwise.watch options rounds
  | .loop locals initial condition update body => do
    watchEnter [initial, update] locals
    initial.watch options rounds
    let test : Watched Machine Bool := return (← condition.watchRun).isTruthy
    let round : Watched Machine Unit := do
      .tick options.iterationLimit
      body.watch options rounds
      update.watch options rounds
    .loop test round rounds
  | .each x collection body => do
    let v ← collection.watchRun
    let items ← .silent (Exec.ofExcept v.items)
    items.forM fun item => do
      .tick options.iterationLimit
      .noting (.enter [x.slot]) (pure ())
      watchBind x item
      body.watch options rounds
  | .switch subject body => do
    let _ ← subject.watchRun
    body.watch options rounds
  | .label _ guard =>
    match guard with
    | some e => do
      let _ ← e.watchRun
    | none => pure ()

def Block.watch (options : Options) (rounds : Nat) : Block → Watched Machine Unit
  | .mk locals steps => do
    watchEnter steps locals
    Step.watchAll options rounds steps

def Step.watchAll (options : Options) (rounds : Nat) : List Step → Watched Machine Unit
  | [] => pure ()
  | step :: rest => do
    step.watch options rounds
    Step.watchAll options rounds rest

end

/-- What happens while a program renders a model. -/
def Program.events (program : Program) (options : Options) (rounds : Nat) (model : Value) : List Event :=
  (program.body.watch options rounds).events (program.start model)

/-! ## Watching changes nothing -/

section Run
variable {options : Options} {rounds : Nat}

mutual

theorem Term.watch_run (model : Value) : ∀ e : Term, (e.watch model).run = e.eval model
  | .const _ | .model _ | .variable _ | .update _ _ => rfl
  | .member target _ => by
    simp only [Term.watch, Term.eval, Watched.run_bind, Watched.run_pure, Term.watch_run model target]
  | .index target position => by
    simp only [Term.watch, Term.eval, Watched.run_bind, Watched.run_pure, Term.watch_run model target,
      Term.watch_run model position]
  | .call target _ args => by
    simp only [Term.watch, Term.eval, Watched.run_bind, Watched.run_silent, Term.watch_run model target,
      Term.watchArgs_run model args]
  | .unary _ operand => by
    simp only [Term.watch, Term.eval, Watched.run_bind, Watched.run_silent, Term.watch_run model operand]
  | .binary _ left right => by
    simp only [Term.watch, Term.eval, Watched.run_bind, Watched.run_ite, Watched.run_pure, Watched.run_silent,
      Term.watch_run model left, Term.watch_run model right]
  | .conditional condition ifTrue ifFalse => by
    simp only [Term.watch, Term.eval, Watched.run_bind, Watched.run_ite, Term.watch_run model condition,
      Term.watch_run model ifTrue, Term.watch_run model ifFalse]

theorem Term.watchArgs_run (model : Value) : ∀ es : List Term, (Term.watchArgs model es).run = Term.evalArgs model es
  | [] => rfl
  | e :: rest => by
    simp only [Term.watchArgs, Term.evalArgs, Watched.run_bind, Watched.run_pure, Term.watch_run model e,
      Term.watchArgs_run model rest]

end

@[simp] theorem Term.watchRun_run (e : Term) : e.watchRun.run = e.run := by
  simp only [Term.watchRun, Watched.eval, Term.run, Term.watch_run]

@[simp] theorem Place.watchStore_run (place : Place) (v : Value) : (place.watchStore v).run = Exec.store place v := by
  unfold Place.watchStore
  split <;> rfl

@[simp] theorem watchBind_run (x : Local) (v : Value) :
    (watchBind x v).run = Exec.eval fun _ => Eval.set x.slot v := rfl

@[simp] theorem watchEnter_run (steps : List Step) (locals : List Nat) :
    (watchEnter steps locals).run = Exec.eval fun _ => Eval.reset locals := rfl

mutual

theorem Step.watch_run : ∀ step : Step, (step.watch options rounds).run = step.run options rounds
  | .write _ => rfl
  | .emit e | .declare _ e | .assign _ e | .store _ e => by simp [Step.watch, Step.run]
  | .eval e | .label _ (some e) => by simp [Step.watch, Step.run, discard_eq_bind]
  | .block body => by rw [Step.watch, Step.run, Block.watch_run body]
  | .when condition body => by simp [Step.watch, Step.run, Block.watch_run body]
  | .choose condition body otherwise => by
    simp [Step.watch, Step.run, Block.watch_run body, Block.watch_run otherwise]
  | .loop _ initial condition update body => by
    simp [Step.watch, Step.run, Step.watch_run initial, Step.watch_run update, Block.watch_run body]
  | .each _ collection body => by simp [Step.watch, Step.run, Block.watch_run body]
  | .switch subject body => by simp [Step.watch, Step.run, discard_eq_bind, Block.watch_run body]
  | .label _ none => rfl

theorem Block.watch_run : ∀ b : Block, (b.watch options rounds).run = b.run options rounds
  | .mk _ steps => by simp only [Block.watch, Block.run, Watched.run_bind, watchEnter_run, Step.watchAll_run steps]

theorem Step.watchAll_run :
    ∀ steps : List Step, (Step.watchAll options rounds steps).run = Step.runAll options rounds steps
  | [] => rfl
  | step :: rest => by
    simp only [Step.watchAll, Step.runAll, Watched.run_bind, Step.watch_run step, Step.watchAll_run rest]

end

end Run

/-! ## Kinds of events -/

section Only
variable {σ α β : Type} {P : Event → Prop}

/-- All events of the run are as asked. -/
def Watched.Only (P : Event → Prop) (x : Watched σ α) : Prop := ∀ s, ∀ event ∈ x.events s, P event

theorem Watched.events_bind (x : Watched σ α) (f : α → Watched σ β) (s : σ) :
    (x >>= f).events s = x.events s ++ after (fun a => (f a).events) (x.run s) := rfl

theorem Watched.Only.silent (run : EStateM Halt σ α) : (Watched.silent run).Only P := by
  intro s event he
  cases he

theorem Watched.Only.pure (a : α) : (Pure.pure a : Watched σ α).Only P := Only.silent _

theorem Watched.Only.noting {event : Event} (h : P event) (run : EStateM Halt σ α) :
    (Watched.noting event run).Only P := by
  intro s event' he
  rw [List.mem_singleton.1 he]
  exact h

theorem Watched.Only.bind {x : Watched σ α} {f : α → Watched σ β} (hx : x.Only P) (hf : ∀ a, (f a).Only P) :
    (x >>= f).Only P := by
  intro s event he
  rw [events_bind, List.mem_append] at he
  rcases he with he | he
  · exact hx s event he
  · cases hr : x.run s with
    | ok a s' =>
      rw [hr] at he
      exact hf a s' event he
    | error halt s' =>
      rw [hr] at he
      cases he

mutual

/-- A term only uses the variables it reads. -/
theorem Term.watch_only {read updated : Local → Prop} (hr : ∀ x, read x → P (.use x.slot)) (model : Value) :
    ∀ e : Term, e.Every read updated → (e.watch model).Only P
  | .const _, _ | .model _, _ => .pure _
  | .variable x, h => .noting (hr x h) _
  | .update _ x, h => .noting (hr x h.1) _
  | .member target _, h => .bind (Term.watch_only hr model target h) fun _ => .pure _
  | .index target position, h =>
    .bind (Term.watch_only hr model target h.1) fun _ => .bind (Term.watch_only hr model position h.2) fun _ => .pure _
  | .call target _ args, h =>
    .bind (Term.watch_only hr model target h.1) fun _ =>
      .bind (Term.watchArgs_only hr model args h.2) fun _ => .silent _
  | .unary _ operand, h => .bind (Term.watch_only hr model operand h) fun _ => .silent _
  | .binary _ left right, h => by
    refine .bind (Term.watch_only hr model left h.1) fun v => ?_
    split
    · exact .pure v
    · exact .bind (Term.watch_only hr model right h.2) fun _ => .silent _
  | .conditional condition ifTrue ifFalse, h => by
    refine .bind (Term.watch_only hr model condition h.1) fun v => ?_
    split
    · exact Term.watch_only hr model ifTrue h.2.1
    · exact Term.watch_only hr model ifFalse h.2.2

theorem Term.watchArgs_only {read updated : Local → Prop} (hr : ∀ x, read x → P (.use x.slot)) (model : Value) :
    ∀ es : List Term, Term.EveryArg read updated es → (Term.watchArgs model es).Only P
  | [], _ => .pure _
  | e :: rest, h =>
    .bind (Term.watch_only hr model e h.1) fun _ => .bind (Term.watchArgs_only hr model rest h.2) fun _ => .pure _

end

theorem Term.watchRun_only {read updated : Local → Prop} (hr : ∀ x, read x → P (.use x.slot)) {e : Term}
    (h : e.Every read updated) : e.watchRun.Only P :=
  fun machine => Term.watch_only hr machine.model e h machine.slots

end Only

end Stencil
