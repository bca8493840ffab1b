import Stencil.Machine.Run
/-!
# What runs keep

`Keeps I E x` says that the run `x` leads from states with `I` to states with `I`, and stops with
halts of `E` only. A run of a program keeps what its terms, the slots it sets and the places it stores
to keep (`Step.run_keeps`), so each invariant is shown of those alone. The first one is that a program
whose slots are in range never misses one.
-/

namespace Stencil

section Keeps
variable {ε σ α β : Type} {I : σ → Prop} {E : ε → Prop}

theorem bind_of_ok {x : EStateM ε σ α} {f : α → EStateM ε σ β} {s s' : σ} {a : α} (h : x s = .ok a s') :
    (x >>= f) s = f a s' := by
  change EStateM.bind x f s = f a s'
  simp [EStateM.bind, h]

theorem bind_of_error {x : EStateM ε σ α} {f : α → EStateM ε σ β} {s s' : σ} {e : ε}
    (h : x s = .error e s') : (x >>= f) s = .error e s' := by
  change EStateM.bind x f s = .error e s'
  simp [EStateM.bind, h]

/-- From a state with `I` the run ends in one, and if it halts, the halt is in `E`. -/
def Keeps (I : σ → Prop) (E : ε → Prop) (x : EStateM ε σ α) : Prop :=
  ∀ s, I s →
    match x s with
    | .ok _ s' => I s'
    | .error e s' => I s' ∧ E e

theorem Keeps.pure (a : α) : Keeps I E (Pure.pure a : EStateM ε σ α) := fun _ hs => hs

theorem Keeps.throw {e : ε} (he : E e) : Keeps I E (MonadExcept.throw e : EStateM ε σ α) :=
  fun _ hs => ⟨hs, he⟩

theorem Keeps.bind {x : EStateM ε σ α} {f : α → EStateM ε σ β} (hx : Keeps I E x)
    (hf : ∀ a, Keeps I E (f a)) : Keeps I E (x >>= f) := by
  intro s hs
  have hxs := hx s hs
  cases h : x s with
  | ok a s' =>
    rw [bind_of_ok h]
    rw [h] at hxs
    exact hf a s' hxs
  | error e s' =>
    rw [bind_of_error h]
    rw [h] at hxs
    exact hxs

theorem discard_eq_bind (x : EStateM ε σ α) : discard x = x >>= fun _ => Pure.pure () := by
  funext s
  change EStateM.map _ x s = EStateM.bind x _ s
  unfold EStateM.map EStateM.bind
  cases x s <;> rfl

theorem Keeps.discard {x : EStateM ε σ α} (hx : Keeps I E x) : Keeps I E (discard x) := by
  rw [discard_eq_bind]
  exact .bind hx fun _ => .pure ()

theorem Keeps.forM {f : α → EStateM ε σ Unit} (hf : ∀ a, Keeps I E (f a)) (l : List α) :
    Keeps I E (l.forM f) := by
  induction l with
  | nil => exact .pure ()
  | cons a l ih => exact .bind (hf a) fun _ => ih

end Keeps

/-! ## Terms -/

mutual

/-- All variables that the term reads and all that it updates are as asked; an update is also a read. -/
def Term.Every (read updated : Local → Prop) : Term → Prop
  | .const _ | .model _ => True
  | .variable x => read x
  | .member target _ => target.Every read updated
  | .index target position => target.Every read updated ∧ position.Every read updated
  | .call target _ args => target.Every read updated ∧ Term.EveryArg read updated args
  | .unary _ operand => operand.Every read updated
  | .update _ x => read x ∧ updated x
  | .binary _ left right => left.Every read updated ∧ right.Every read updated
  | .conditional condition ifTrue ifFalse =>
    condition.Every read updated ∧ ifTrue.Every read updated ∧ ifFalse.Every read updated

def Term.EveryArg (read updated : Local → Prop) : List Term → Prop
  | [] => True
  | e :: rest => e.Every read updated ∧ Term.EveryArg read updated rest

end

section Terms
variable {I : Slots → Prop} {E : Halt → Prop} {read updated : Local → Prop} {model : Value}

mutual

theorem Term.every_of_forall (hr : ∀ x, read x) (hu : ∀ x, updated x) : ∀ e : Term, e.Every read updated
  | .const _ | .model _ => trivial
  | .variable x => hr x
  | .member target _ => Term.every_of_forall hr hu target
  | .index target position => ⟨Term.every_of_forall hr hu target, Term.every_of_forall hr hu position⟩
  | .call target _ args => ⟨Term.every_of_forall hr hu target, Term.everyArg_of_forall hr hu args⟩
  | .unary _ operand => Term.every_of_forall hr hu operand
  | .update _ x => ⟨hr x, hu x⟩
  | .binary _ left right => ⟨Term.every_of_forall hr hu left, Term.every_of_forall hr hu right⟩
  | .conditional condition ifTrue ifFalse =>
    ⟨Term.every_of_forall hr hu condition, Term.every_of_forall hr hu ifTrue, Term.every_of_forall hr hu ifFalse⟩

theorem Term.everyArg_of_forall (hr : ∀ x, read x) (hu : ∀ x, updated x) :
    ∀ es : List Term, Term.EveryArg read updated es
  | [] => trivial
  | e :: rest => ⟨Term.every_of_forall hr hu e, Term.everyArg_of_forall hr hu rest⟩

end

theorem Eval.get_keeps {slot : Nat} (hE : E (.missingSlot slot)) : Keeps I E (Eval.get slot) := by
  intro slots hs
  cases h : slots[slot]? with
  | some v => simpa [Eval.get, h] using hs
  | none => simpa [Eval.get, h] using ⟨hs, hE⟩

theorem Eval.set_keeps {slot : Nat} {v : Value} (hE : E (.missingSlot slot))
    (hset : ∀ slots, I slots → I (slots.setIfInBounds slot v)) : Keeps I E (Eval.set slot v) := by
  intro slots hs
  by_cases h : slot < slots.size
  · simpa [Eval.set, h] using hset slots hs
  · simpa [Eval.set, h] using ⟨hs, hE⟩

theorem Eval.reset_keeps {locals : List Nat} (h : ∀ slot ∈ locals, Keeps I E (Eval.set slot .undefined)) :
    Keeps I E (Eval.reset locals) := by
  induction locals with
  | nil => exact .pure ()
  | cons slot rest ih =>
    obtain ⟨hslot, hrest⟩ := List.forall_mem_cons.1 h
    exact .bind hslot fun _ => ih hrest

theorem Eval.ofExcept_keeps {α : Type} (hE : ∀ f, E (.fault f)) (r : Except Fault α) :
    Keeps I E (Eval.ofExcept r) := by
  cases r with
  | ok a => exact .pure a
  | error f => exact .throw (hE f)

mutual

/-- A term keeps what reading and setting its variables keeps. -/
theorem Term.eval_keeps (hE : ∀ f, E (.fault f)) (hget : ∀ x, read x → Keeps I E (Eval.get x.slot))
    (hset : ∀ x v, updated x → Keeps I E (Eval.set x.slot v)) :
    ∀ e : Term, e.Every read updated → Keeps I E (e.eval model)
  | .const _, _ | .model _, _ => .pure _
  | .variable x, h => hget x h
  | .member target _, h => .bind (Term.eval_keeps hE hget hset target h) fun _ => .pure _
  | .index target position, h =>
    .bind (Term.eval_keeps hE hget hset target h.1) fun _ =>
      .bind (Term.eval_keeps hE hget hset position h.2) fun _ => .pure _
  | .call target _ args, h =>
    .bind (Term.eval_keeps hE hget hset target h.1) fun _ =>
      .bind (Term.evalArgs_keeps hE hget hset args h.2) fun _ => Eval.ofExcept_keeps hE _
  | .unary _ operand, h =>
    .bind (Term.eval_keeps hE hget hset operand h) fun _ => Eval.ofExcept_keeps hE _
  | .update op x, h => by
    refine .bind (hget x h.1) fun v => ?_
    cases op.apply? v with
    | some w => exact .bind (hset x w h.2) fun _ => .pure w
    | none => exact .throw (hE _)
  | .binary op left right, h => by
    refine .bind (Term.eval_keeps hE hget hset left h.1) fun v => ?_
    split
    · exact .pure v
    · exact .bind (Term.eval_keeps hE hget hset right h.2) fun w => Eval.ofExcept_keeps hE _
  | .conditional condition ifTrue ifFalse, h => by
    refine .bind (Term.eval_keeps hE hget hset condition h.1) fun v => ?_
    split
    · exact Term.eval_keeps hE hget hset ifTrue h.2.1
    · exact Term.eval_keeps hE hget hset ifFalse h.2.2

theorem Term.evalArgs_keeps (hE : ∀ f, E (.fault f)) (hget : ∀ x, read x → Keeps I E (Eval.get x.slot))
    (hset : ∀ x v, updated x → Keeps I E (Eval.set x.slot v)) :
    ∀ es : List Term, Term.EveryArg read updated es → Keeps I E (Term.evalArgs model es)
  | [], _ => .pure _
  | e :: rest, h =>
    .bind (Term.eval_keeps hE hget hset e h.1) fun _ =>
      .bind (Term.evalArgs_keeps hE hget hset rest h.2) fun _ => .pure _

end

end Terms

/-! ## Steps -/

mutual

/-- All terms of the step, all slots that it sets and all places that it stores to are as asked. -/
def Step.Every (term : Term → Prop) (slot : Nat → Prop) (place : Place → Prop) : Step → Prop
  | .write _ => True
  | .emit e | .eval e => term e
  | .declare x e | .assign x e => slot x.slot ∧ term e
  | .store target e => place target ∧ term e
  | .block body => body.Every term slot place
  | .when condition body => term condition ∧ body.Every term slot place
  | .choose condition body otherwise =>
    term condition ∧ body.Every term slot place ∧ otherwise.Every term slot place
  | .loop locals initial condition update body =>
    (∀ s ∈ locals, slot s) ∧ initial.Every term slot place ∧ term condition ∧
      update.Every term slot place ∧ body.Every term slot place
  | .each x collection body => slot x.slot ∧ term collection ∧ body.Every term slot place
  | .switch subject body => term subject ∧ body.Every term slot place
  | .label _ guard =>
    match guard with
    | some e => term e
    | none => True

def Block.Every (term : Term → Prop) (slot : Nat → Prop) (place : Place → Prop) : Block → Prop
  | .mk locals steps => (∀ s ∈ locals, slot s) ∧ Step.EveryAll term slot place steps

def Step.EveryAll (term : Term → Prop) (slot : Nat → Prop) (place : Place → Prop) : List Step → Prop
  | [] => True
  | step :: rest => step.Every term slot place ∧ Step.EveryAll term slot place rest

end

section Every
variable {term term' : Term → Prop} {slot slot' : Nat → Prop} {place place' : Place → Prop}

mutual

theorem Step.every_of_forall (ht : ∀ e, term e) (hs : ∀ s, slot s) (hp : ∀ target, place target) :
    ∀ step : Step, step.Every term slot place
  | .write _ | .label _ none => trivial
  | .emit e | .eval e | .label _ (some e) => ht e
  | .declare x e | .assign x e => ⟨hs x.slot, ht e⟩
  | .store target e => ⟨hp target, ht e⟩
  | .block body => Block.every_of_forall ht hs hp body
  | .when condition body | .switch condition body => ⟨ht condition, Block.every_of_forall ht hs hp body⟩
  | .choose condition body otherwise =>
    ⟨ht condition, Block.every_of_forall ht hs hp body, Block.every_of_forall ht hs hp otherwise⟩
  | .loop _ initial condition update body =>
    ⟨fun s _ => hs s, Step.every_of_forall ht hs hp initial, ht condition, Step.every_of_forall ht hs hp update,
      Block.every_of_forall ht hs hp body⟩
  | .each x collection body => ⟨hs x.slot, ht collection, Block.every_of_forall ht hs hp body⟩

theorem Block.every_of_forall (ht : ∀ e, term e) (hs : ∀ s, slot s) (hp : ∀ target, place target) :
    ∀ b : Block, b.Every term slot place
  | .mk _ steps => ⟨fun s _ => hs s, Step.everyAll_of_forall ht hs hp steps⟩

theorem Step.everyAll_of_forall (ht : ∀ e, term e) (hs : ∀ s, slot s) (hp : ∀ target, place target) :
    ∀ steps : List Step, Step.EveryAll term slot place steps
  | [] => trivial
  | step :: rest => ⟨Step.every_of_forall ht hs hp step, Step.everyAll_of_forall ht hs hp rest⟩

end

mutual

theorem Step.Every.and : ∀ {step : Step}, step.Every term slot place → step.Every term' slot' place' →
    step.Every (fun e => term e ∧ term' e) (fun s => slot s ∧ slot' s) (fun p => place p ∧ place' p)
  | .write _, _, _ | .label _ none, _, _ => trivial
  | .emit _, h, h' | .eval _, h, h' | .label _ (some _), h, h' => ⟨h, h'⟩
  | .declare _ _, h, h' | .assign _ _, h, h' | .store _ _, h, h' => ⟨⟨h.1, h'.1⟩, h.2, h'.2⟩
  | .block _, h, h' => Block.Every.and h h'
  | .when _ _, h, h' | .switch _ _, h, h' => ⟨⟨h.1, h'.1⟩, Block.Every.and h.2 h'.2⟩
  | .choose _ _ _, h, h' => ⟨⟨h.1, h'.1⟩, Block.Every.and h.2.1 h'.2.1, Block.Every.and h.2.2 h'.2.2⟩
  | .loop _ _ _ _ _, ⟨hl, hi, hc, hu, hb⟩, ⟨hl', hi', hc', hu', hb'⟩ =>
    ⟨fun s hs => ⟨hl s hs, hl' s hs⟩, Step.Every.and hi hi', ⟨hc, hc'⟩, Step.Every.and hu hu', Block.Every.and hb hb'⟩
  | .each _ _ _, h, h' => ⟨⟨h.1, h'.1⟩, ⟨h.2.1, h'.2.1⟩, Block.Every.and h.2.2 h'.2.2⟩

theorem Block.Every.and : ∀ {b : Block}, b.Every term slot place → b.Every term' slot' place' →
    b.Every (fun e => term e ∧ term' e) (fun s => slot s ∧ slot' s) (fun p => place p ∧ place' p)
  | .mk _ _, h, h' => ⟨fun s hs => ⟨h.1 s hs, h'.1 s hs⟩, Step.EveryAll.and h.2 h'.2⟩

theorem Step.EveryAll.and : ∀ {steps : List Step}, Step.EveryAll term slot place steps →
    Step.EveryAll term' slot' place' steps →
    Step.EveryAll (fun e => term e ∧ term' e) (fun s => slot s ∧ slot' s) (fun p => place p ∧ place' p) steps
  | [], _, _ => trivial
  | _ :: _, h, h' => ⟨Step.Every.and h.1 h'.1, Step.EveryAll.and h.2 h'.2⟩

end

end Every

theorem Exec.tick_none (m : Machine) : Exec.tick none m = .ok () { m with iterations := m.iterations + 1 } := rfl

theorem Exec.tick_some (limit : UInt64) (m : Machine) :
    Exec.tick (some limit) m =
      if limit.toNat < m.iterations + 1 then
        .error (.fault (.iterationLimit limit)) { m with iterations := m.iterations + 1 }
      else .ok () { m with iterations := m.iterations + 1 } := by
  change (if limit.toNat < m.iterations + 1 then throw (Halt.fault (.iterationLimit limit)) else pure () : Exec Unit)
    { m with iterations := m.iterations + 1 } = _
  split <;> rfl

/-- Whether a tick fails depends on the count alone, and all that it changes is the count. -/
theorem Exec.tick_cases (limit : Option UInt64) (count : Nat) :
    (∀ m : Machine, m.iterations = count → Exec.tick limit m = .ok () { m with iterations := count + 1 }) ∨
    ∃ fault, ∀ m : Machine, m.iterations = count →
      Exec.tick limit m = .error (.fault fault) { m with iterations := count + 1 } := by
  cases limit with
  | none =>
    left
    rintro m rfl
    exact Exec.tick_none m
  | some limit =>
    by_cases h : limit.toNat < count + 1
    · right
      refine ⟨.iterationLimit limit, ?_⟩
      rintro m rfl
      rw [Exec.tick_some, if_pos h]
    · left
      rintro m rfl
      rw [Exec.tick_some, if_neg h]

theorem Exec.tick_keeps {I : Machine → Prop} {E : Halt → Prop} (hE : ∀ f, E (.fault f))
    (hI : ∀ m, I m → I { m with iterations := m.iterations + 1 }) (limit : Option UInt64) :
    Keeps I E (Exec.tick limit) := by
  intro m hm
  rcases Exec.tick_cases limit m.iterations with h | ⟨fault, h⟩
  · rw [h m rfl]
    exact hI m hm
  · rw [h m rfl]
    exact ⟨hI m hm, hE fault⟩

/-- What a run is made of, each part keeping `I` and `E`. -/
structure Kept (I : Machine → Prop) (E : Halt → Prop) (limit : Option UInt64) (term : Term → Prop)
    (slot : Nat → Prop) (place : Place → Prop) : Prop where
  term : ∀ e, term e → Keeps I E e.run
  set : ∀ s v, slot s → Keeps I E (Exec.eval fun _ => Eval.set s v)
  store : ∀ target v, place target → Keeps I E (Exec.store target v)
  write : ∀ s, Keeps I E (Exec.write s)
  tick : Keeps I E (Exec.tick limit)
  notIterable : ∀ kind, E (.fault (.notIterable kind))
  exhausted : E .exhausted

section Steps
variable {I : Machine → Prop} {E : Halt → Prop} {options : Options} {term : Term → Prop}
  {slot : Nat → Prop} {place : Place → Prop}

theorem Exec.eval_keeps {α : Type} {run : Value → Eval α}
    (h : ∀ m, I m → Keeps (fun slots => I { m with slots }) E (run m.model)) :
    Keeps I E (Exec.eval run) := by
  intro m hm
  have hs := h m hm m.slots hm
  unfold Exec.eval
  cases hr : run m.model m.slots <;> simpa [hr] using hs

/-- Evaluating leaves the model alone, so it can be done part by part. -/
theorem Exec.eval_bind {α β : Type} (run : Value → Eval α) (f : Value → α → Eval β) :
    (Exec.eval fun model => run model >>= f model) =
      Exec.eval run >>= fun a => Exec.eval fun model => f model a := by
  funext m
  cases h : run m.model m.slots with
  | ok a slots =>
    have he : Exec.eval run m = .ok a { m with slots } := by simp [Exec.eval, h]
    rw [bind_of_ok he]
    simp [Exec.eval, bind_of_ok h]
  | error halt slots =>
    have he : Exec.eval run m = .error halt { m with slots } := by simp [Exec.eval, h]
    rw [bind_of_error he]
    simp [Exec.eval, bind_of_error h]

theorem Kept.reset (h : Kept I E options.iterationLimit term slot place) {locals : List Nat}
    (hl : ∀ s ∈ locals, slot s) : Keeps I E (Exec.eval fun _ => Eval.reset locals) := by
  induction locals with
  | nil => exact .pure ()
  | cons s rest ih =>
    have hr := ih fun s hs => hl s (by simp [hs])
    exact Exec.eval_bind (fun _ => Eval.set s .undefined) (fun _ _ => Eval.reset rest) ▸
      .bind (h.set s _ (hl s (by simp))) fun _ => hr

theorem Kept.loop {test : Exec Bool} {round : Exec Unit} (hE : E .exhausted) (ht : Keeps I E test)
    (hr : Keeps I E round) (rounds : Nat) : Keeps I E (Exec.loop test round rounds) := by
  induction rounds with
  | zero => exact .throw hE
  | succ rounds ih =>
    refine .bind ht fun b => ?_
    cases b with
    | true => exact .bind hr fun _ => ih
    | false => exact .pure ()

theorem Kept.items (h : Kept I E options.iterationLimit term slot place) (v : Value) :
    Keeps I E (Exec.ofExcept v.items) := by
  cases v <;> first | exact .pure _ | exact .throw (h.notIterable _)

mutual

/-- A step keeps what its parts keep. -/
theorem Step.run_keeps (h : Kept I E options.iterationLimit term slot place) (rounds : Nat) :
    ∀ step : Step, step.Every term slot place → Keeps I E (step.run options rounds)
  | .write s, _ => h.write s
  | .emit e, he => .bind (h.term e he) fun _ => h.write _
  | .declare x e, he | .assign x e, he => .bind (h.term e he.2) fun v => h.set x.slot v he.1
  | .store target e, he => .bind (h.term e he.2) fun v => h.store target v he.1
  | .eval e, he => (h.term e he).discard
  | .block body, he => Block.run_keeps h rounds body he
  | .when condition body, he => by
    refine .bind (h.term condition he.1) fun v => ?_
    split
    · exact Block.run_keeps h rounds body he.2
    · exact .pure ()
  | .choose condition body otherwise, he => by
    refine .bind (h.term condition he.1) fun v => ?_
    split
    · exact Block.run_keeps h rounds body he.2.1
    · exact Block.run_keeps h rounds otherwise he.2.2
  | .loop locals initial condition update body, he => by
    obtain ⟨hl, hi, hc, hu, hb⟩ := he
    refine .bind (h.reset hl) fun _ => .bind (Step.run_keeps h rounds initial hi) fun _ => ?_
    exact Kept.loop h.exhausted (.bind (h.term condition hc) fun _ => .pure _)
      (.bind h.tick fun _ => .bind (Block.run_keeps h rounds body hb) fun _ =>
        Step.run_keeps h rounds update hu) rounds
  | .each x collection body, he => by
    refine .bind (h.term collection he.2.1) fun v => .bind (h.items v) fun items => ?_
    exact .forM (fun item => .bind h.tick fun _ => .bind (h.set x.slot item he.1) fun _ =>
      Block.run_keeps h rounds body he.2.2) items
  | .switch subject body, he =>
    .bind (h.term subject he.1).discard fun _ => Block.run_keeps h rounds body he.2
  | .label _ none, _ => .pure ()
  | .label _ (some guard), he => (h.term guard he).discard

theorem Block.run_keeps (h : Kept I E options.iterationLimit term slot place) (rounds : Nat) :
    ∀ b : Block, b.Every term slot place → Keeps I E (b.run options rounds)
  | .mk _ steps, he => .bind (h.reset he.1) fun _ => Step.runAll_keeps h rounds steps he.2

theorem Step.runAll_keeps (h : Kept I E options.iterationLimit term slot place) (rounds : Nat) :
    ∀ steps : List Step, Step.EveryAll term slot place steps → Keeps I E (Step.runAll options rounds steps)
  | [], _ => .pure ()
  | step :: rest, he =>
    .bind (Step.run_keeps h rounds step he.1) fun _ => Step.runAll_keeps h rounds rest he.2

end

end Steps

/-! ## Slots in range -/

def Term.InRange (n : Nat) (e : Term) : Prop := e.Every (·.slot < n) (·.slot < n)

def Place.InRange (n : Nat) (place : Place) : Prop :=
  match place.root with
  | .variable x => x.slot < n
  | .model _ => True

/-- Every slot number anywhere in the block is below `n`. -/
def Block.InRange (n : Nat) (b : Block) : Prop := b.Every (Term.InRange n) (· < n) (Place.InRange n)

/-- Every slot number anywhere in the program is one of its slots. -/
def Program.InRange (program : Program) : Prop := program.body.InRange program.slots

theorem Exec.store_keeps {I : Machine → Prop} {E : Halt → Prop} {place : Place} (hE : ∀ f, E (.fault f))
    (hget : ∀ x, place.root = .variable x → Keeps I E (Exec.eval fun _ => Eval.get x.slot))
    (hset : ∀ x v, place.root = .variable x → Keeps I E (Exec.eval fun _ => Eval.set x.slot v))
    (hmodel : ∀ name, place.root = .model name → ∀ m model, I m → I { m with model }) (v : Value) :
    Keeps I E (Exec.store place v) := by
  obtain ⟨x | name, path⟩ := place
  · refine .bind (hget x rfl) fun target => .bind ?_ fun updated => hset x updated rfl
    -- the check is a local function, which has to be unfolded before the split
    dsimp only
    split
    · exact .pure _
    · exact .throw (hE _)
  · refine .bind (fun m hm => hm) fun m => .bind ?_ fun updated => fun m hm => hmodel name rfl m updated hm
    dsimp only
    split
    · exact .pure _
    · exact .throw (hE _)

section Slots
variable {I : Slots → Prop} {E : Halt → Prop} {n : Nat}

/-- What getting and setting the slots below `n` keeps, a run with slots below `n` keeps. -/
theorem Kept.of_slots (hE : ∀ f, E (.fault f)) (hx : E .exhausted) (hget : ∀ s < n, Keeps I E (Eval.get s))
    (hset : ∀ s < n, ∀ v, Keeps I E (Eval.set s v)) (limit : Option UInt64) :
    Kept (fun m => I m.slots) E limit (Term.InRange n) (· < n) (Place.InRange n) where
  term e he := Exec.eval_keeps fun _ _ => Term.eval_keeps hE (fun x hx => hget x.slot hx)
    (fun x v hx => hset x.slot hx v) e he
  set s v hs := Exec.eval_keeps fun _ _ => hset s hs v
  store place v hp := by
    have hlt : ∀ x, place.root = .variable x → x.slot < n := fun x hx => by simpa [Place.InRange, hx] using hp
    exact Exec.store_keeps hE (fun x hx => Exec.eval_keeps fun _ _ => hget x.slot (hlt x hx))
      (fun x v hx => Exec.eval_keeps fun _ _ => hset x.slot (hlt x hx) v) (fun _ _ _ _ hm => hm) v
  write _ _ hm := hm
  tick := Exec.tick_keeps hE (fun _ hm => hm) limit
  notIterable _ := hE _
  exhausted := hx

end Slots

/-- The halt is not for want of a slot. -/
def Halt.Found (halt : Halt) : Prop := ∀ slot, halt ≠ .missingSlot slot

theorem Eval.get_found {n slot : Nat} (h : slot < n) :
    Keeps (fun slots : Slots => slots.size = n) Halt.Found (Eval.get slot) := by
  intro slots hs
  have hg : slots[slot]? = some slots[slot] := Array.getElem?_eq_getElem (by omega)
  simpa [Eval.get, hg] using hs

theorem Eval.set_found {n slot : Nat} (h : slot < n) (v : Value) :
    Keeps (fun slots : Slots => slots.size = n) Halt.Found (Eval.set slot v) := by
  intro slots hs
  have hlt : slot < slots.size := by omega
  simpa [Eval.set, hlt] using hs

theorem found_kept (n : Nat) (limit : Option UInt64) :
    Kept (fun m => m.slots.size = n) Halt.Found limit (Term.InRange n) (· < n) (Place.InRange n) :=
  Kept.of_slots (by simp [Halt.Found]) (by simp [Halt.Found]) (fun _ hs => Eval.get_found hs)
    (fun _ hs v => Eval.set_found hs v) limit

/-! ## Slots out of reach -/

theorem Eval.get_untouched (slot c : Nat) (w : Option Value) :
    Keeps (fun slots : Slots => slots[c]? = w) (fun _ => True) (Eval.get slot) := Eval.get_keeps trivial

theorem Eval.set_untouched {slot c : Nat} (h : slot ≠ c) (w : Option Value) (v : Value) :
    Keeps (fun slots : Slots => slots[c]? = w) (fun _ => True) (Eval.set slot v) := by
  refine Eval.set_keeps trivial fun slots hs => ?_
  rw [Array.getElem?_setIfInBounds_ne h, hs]

theorem Term.eval_untouched {c : Nat} {e : Term} (he : e.InRange c) (model : Value) (w : Option Value) :
    Keeps (fun slots : Slots => slots[c]? = w) (fun _ => True) (e.eval model) :=
  Term.eval_keeps (fun _ => trivial) (fun x _ => Eval.get_untouched x.slot c w)
    (fun _ v hx => Eval.set_untouched (Nat.ne_of_lt hx) w v) e he

/-- A run with slots below `c` leaves the slot `c` alone. -/
theorem untouched_kept (c : Nat) (w : Option Value) (limit : Option UInt64) :
    Kept (fun m => m.slots[c]? = w) (fun _ => True) limit (Term.InRange c) (· < c) (Place.InRange c) :=
  Kept.of_slots (fun _ => trivial) trivial (fun s _ => Eval.get_untouched s c w)
    (fun _ hs v => Eval.set_untouched (Nat.ne_of_lt hs) w v) limit

/-! ## Programs with their slots in range -/

/-- A program with its slots in range never misses one. -/
theorem Program.render_found {program : Program} (h : program.InRange) (options : Options) (rounds : Nat)
    (model : Value) (slot : Nat) : program.render options rounds model ≠ .error (.missingSlot slot) := by
  have hr := Block.run_keeps (found_kept program.slots options.iterationLimit) rounds program.body h
    (program.start model) (by simp [Program.start])
  unfold Program.render
  cases hrun : program.body.run options rounds (program.start model) with
  | ok _ m => simp
  | error halt m =>
    rw [hrun] at hr
    simpa using hr.2 slot

end Stencil
