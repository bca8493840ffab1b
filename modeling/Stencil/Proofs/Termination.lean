import Mathlib
import Stencil.Proofs.Events
import Stencil.Proofs.IterationLimit
/-!
# Renders that end

A render under a limit ends, since every round of a loop counts towards the limit, and its count goes at
most one beyond the limit (`Watched.Within`). Without a limit only a `loop` step can go on without end, so
a program that has none ends as well (`Step.run_unexhausted`).
-/

namespace Stencil

/-- Given enough rounds for each loop, the render gives a text or a fault after `k` rounds in all. -/
def Program.Finishes (program : Program) (options : Options) (model : Value) (k : Nat) : Prop :=
  (∃ text, program.Ends options model (.ok text) k) ∨
    ∃ fault, program.Ends options model (.error (.fault fault)) k

/-- A program with its slots in range ends with a text or a fault, if it ends. -/
theorem Program.Ends.finishes {program : Program} (h : program.InRange) {options : Options} {model : Value}
    {result : Except Halt String} {k : Nat} (he : program.Ends options model result k) :
    program.Finishes options model k := by
  cases result with
  | ok text => exact .inl ⟨text, he⟩
  | error halt =>
    cases halt with
    | fault fault => exact .inr ⟨fault, he⟩
    | exhausted => exact (he.1 rfl).elim
    | missingSlot slot =>
      obtain ⟨-, n, hn⟩ := he
      have hrender := congrArg Prod.fst (hn n (Nat.le_refl n))
      exact (Program.render_found h options n model slot hrender).elim

/-! ## Programs without loops -/

mutual

/-- No `loop` step occurs; `each` steps may. -/
def Step.LoopFree : Step → Prop
  | .loop _ _ _ _ _ => False
  | .block body | .when _ body | .switch _ body | .each _ _ body => body.LoopFree
  | .choose _ body otherwise => body.LoopFree ∧ otherwise.LoopFree
  | _ => True

def Block.LoopFree : Block → Prop
  | .mk _ steps => Step.LoopFreeAll steps

def Step.LoopFreeAll : List Step → Prop
  | [] => True
  | step :: rest => step.LoopFree ∧ Step.LoopFreeAll rest

end

/-- The run does not run out of rounds. -/
def Unexhausted {α : Type} (x : Exec α) : Prop := Keeps (fun _ => True) (· ≠ .exhausted) x

theorem Quiet.unexhausted {α : Type} {x : Exec α} (h : Quiet x) : Unexhausted x := by
  intro m _
  have hm := h m.iterations m rfl
  cases hx : x m with
  | ok a m' => trivial
  | error halt m' =>
    rw [hx] at hm
    exact ⟨trivial, hm.2⟩

theorem tick_unexhausted (limit : Option UInt64) : Unexhausted (Exec.tick limit) :=
  Exec.tick_keeps (by simp) (fun _ _ => trivial) limit

section LoopFree
variable {options : Options} {rounds : Nat}

mutual

/-- A step without loops does not run out of rounds, however few it is given. -/
theorem Step.run_unexhausted : ∀ step : Step, step.LoopFree → Unexhausted (step.run options rounds)
  | .write s, _ => (write_quiet s).unexhausted
  | .emit e, _ => .bind e.run_quiet.unexhausted fun _ => (write_quiet _).unexhausted
  | .declare x e, _ | .assign x e, _ => .bind e.run_quiet.unexhausted fun v => (set_quiet x.slot v).unexhausted
  | .store place e, _ => .bind e.run_quiet.unexhausted fun v => (store_quiet place v).unexhausted
  | .eval e, _ | .label _ (some e), _ => e.run_quiet.unexhausted.discard
  | .label _ none, _ => .pure ()
  | .block body, h => Block.run_unexhausted body h
  | .when condition body, h => by
    refine .bind condition.run_quiet.unexhausted fun v => ?_
    split
    · exact Block.run_unexhausted body h
    · exact .pure ()
  | .choose condition body otherwise, h => by
    refine .bind condition.run_quiet.unexhausted fun v => ?_
    split
    · exact Block.run_unexhausted body h.1
    · exact Block.run_unexhausted otherwise h.2
  | .each x collection body, h => by
    refine .bind collection.run_quiet.unexhausted fun v => .bind (ofExcept_quiet v.items).unexhausted fun items => ?_
    refine .forM (fun item => .bind (tick_unexhausted _) fun _ => ?_) items
    exact .bind (set_quiet x.slot item).unexhausted fun _ => Block.run_unexhausted body h
  | .switch subject body, h =>
    .bind subject.run_quiet.unexhausted.discard fun _ => Block.run_unexhausted body h

theorem Block.run_unexhausted : ∀ b : Block, b.LoopFree → Unexhausted (b.run options rounds)
  | .mk locals steps, h => .bind (reset_quiet locals).unexhausted fun _ => Step.runAll_unexhausted steps h

theorem Step.runAll_unexhausted :
    ∀ steps : List Step, Step.LoopFreeAll steps → Unexhausted (Step.runAll options rounds steps)
  | [], _ => .pure ()
  | step :: rest, h => .bind (Step.run_unexhausted step h.1) fun _ => Step.runAll_unexhausted rest h.2

end

theorem Program.ends_of_loopFree {program : Program} (h : program.body.LoopFree) (options : Options)
    (model : Value) : ∃ result k, program.Ends options model result k := by
  have hfree : Unexhausted (program.body.run options 0) := Block.run_unexhausted program.body h
  have hrun := hfree (program.start model) trivial
  refine ⟨_, _, Program.ends_of_outcome (rfl : program.outcome options 0 model = _) ?_⟩
  unfold Program.render
  cases hx : program.body.run options 0 (program.start model) with
  | ok _ m => simp
  | error halt m =>
    rw [hx] at hrun
    simpa using hrun.2

end LoopFree

/-! ## The count of rounds -/

section Within
variable {limit : Nat} {α β : Type}

/-- From a count within the limit no tick counts further than one beyond it, and the run ends within it. -/
def Watched.Within (limit : Nat) (x : Watched Machine α) : Prop :=
  ∀ m, m.iterations ≤ limit →
    (∀ count, .tick count ∈ x.events m → count ≤ limit + 1) ∧
      ∀ a m', x.run m = .ok a m' → m'.iterations ≤ limit

def Event.IsTick : Event → Prop
  | .tick _ => True
  | _ => False

theorem Watched.Within.of_quiet {x : Watched Machine α} (hx : Quiet x.run) (he : x.Only (¬·.IsTick)) :
    x.Within limit := by
  intro m hm
  refine ⟨fun count hc => (he m _ hc trivial).elim, fun a m' hr => ?_⟩
  have hk := hx m.iterations m rfl
  rw [hr] at hk
  exact Nat.le_trans (Nat.le_of_eq hk) hm

theorem Watched.Within.silent {run : Exec α} (h : Quiet run) : (Watched.silent run).Within limit :=
  .of_quiet h (.silent run)

theorem Watched.Within.pure (a : α) : (Pure.pure a : Watched Machine α).Within limit :=
  .silent fun _ => .pure a

theorem Watched.Within.noting {event : Event} {run : Exec α} (h : Quiet run) (he : ¬event.IsTick) :
    (Watched.noting event run).Within limit :=
  .of_quiet h (.noting he run)

theorem Watched.Within.bind {x : Watched Machine α} {f : α → Watched Machine β} (hx : x.Within limit)
    (hf : ∀ a, (f a).Within limit) : (x >>= f).Within limit := by
  intro m hm
  obtain ⟨ticks, ends⟩ := hx m hm
  cases hr : x.run m with
  | ok a m₁ =>
    obtain ⟨ticks', ends'⟩ := hf a m₁ (ends a m₁ hr)
    refine ⟨fun count hc => ?_, fun b m' hb => ends' b m' ((bind_of_ok hr).symm.trans hb)⟩
    rw [Watched.events_bind, hr, List.mem_append] at hc
    exact hc.elim (ticks count) (ticks' count)
  | error halt m₁ =>
    refine ⟨fun count hc => ?_, fun b m' hb => ?_⟩
    · rw [Watched.events_bind, hr, List.mem_append] at hc
      exact hc.elim (ticks count) fun h => by cases h
    · rw [Watched.run_bind, bind_of_error hr] at hb
      cases hb

/-- A tick beyond the limit halts, so that no second one follows. -/
theorem Watched.Within.tick (limit : UInt64) : (Watched.tick (some limit)).Within limit.toNat := by
  intro m hm
  constructor
  · intro count hc
    have hcount : count = m.iterations + 1 := by simpa [Watched.tick] using hc
    omega
  · intro a m' hr
    rw [Watched.run_tick, Exec.tick_some] at hr
    by_cases h : limit.toNat < m.iterations + 1
    · rw [if_pos h] at hr
      cases hr
    · rw [if_neg h] at hr
      cases hr
      exact Nat.le_of_not_lt h

theorem Watched.Within.forM {f : β → Watched Machine Unit} (hf : ∀ b, (f b).Within limit) (l : List β) :
    (l.forM f).Within limit := by
  induction l with
  | nil => exact .pure ()
  | cons b l ih => exact .bind (hf b) fun _ => ih

theorem Watched.Within.loop {test : Watched Machine Bool} {round : Watched Machine Unit} (ht : test.Within limit)
    (hr : round.Within limit) (rounds : Nat) : (Watched.loop test round rounds).Within limit := by
  induction rounds with
  | zero =>
    intro m hm
    exact ⟨fun count hc => (by cases hc), fun a m' hr => (by cases hr)⟩
  | succ rounds ih =>
    refine .bind ht fun b => ?_
    cases b with
    | true => exact .bind hr fun _ => ih
    | false => exact .pure ()

theorem Term.watchRun_within (e : Term) : e.watchRun.Within limit := by
  refine .of_quiet (by simpa using e.run_quiet) (Term.watchRun_only (fun x _ => ?_)
    (Term.every_of_forall (fun _ => trivial) (fun _ => trivial) e))
  exact id

theorem Place.watchStore_within (place : Place) (v : Value) : (place.watchStore v).Within limit := by
  unfold Place.watchStore
  split
  · exact .noting (store_quiet place v) id
  · exact .silent (store_quiet place v)

theorem watchBind_within (x : Local) (v : Value) : (watchBind x v).Within limit :=
  .noting (set_quiet x.slot v) id

theorem watchEnter_within (steps : List Step) (locals : List Nat) : (watchEnter steps locals).Within limit :=
  .noting (reset_quiet locals) id

end Within

section Limited
variable {limit : UInt64} {text : String} {rounds : Nat}

mutual

theorem Step.watch_within : ∀ step : Step, (step.watch ⟨text, some limit⟩ rounds).Within limit.toNat
  | .write s => .silent (write_quiet s)
  | .emit e => .bind e.watchRun_within fun _ => .silent (write_quiet _)
  | .declare x e | .assign x e => .bind e.watchRun_within fun v => watchBind_within x v
  | .store place e => .bind e.watchRun_within fun v => place.watchStore_within v
  | .eval e | .label _ (some e) => .bind e.watchRun_within fun _ => .pure ()
  | .label _ none => .pure ()
  | .block body => Block.watch_within body
  | .when condition body => by
    refine .bind condition.watchRun_within fun v => ?_
    split
    · exact Block.watch_within body
    · exact .pure ()
  | .choose condition body otherwise => by
    refine .bind condition.watchRun_within fun v => ?_
    split
    · exact Block.watch_within body
    · exact Block.watch_within otherwise
  | .loop locals initial condition update body => by
    refine .bind (watchEnter_within _ locals) fun _ => .bind (Step.watch_within initial) fun _ => ?_
    refine .loop (.bind condition.watchRun_within fun _ => .pure _) (.bind (.tick limit) fun _ => ?_) rounds
    exact .bind (Block.watch_within body) fun _ => Step.watch_within update
  | .each x collection body => by
    refine .bind collection.watchRun_within fun v => .bind (.silent (ofExcept_quiet v.items)) fun items => ?_
    refine .forM (fun item => .bind (.tick limit) fun _ => .bind (.noting (fun _ => .pure ()) id) fun _ => ?_) items
    exact .bind (watchBind_within x item) fun _ => Block.watch_within body
  | .switch subject body => .bind subject.watchRun_within fun _ => Block.watch_within body

theorem Block.watch_within : ∀ b : Block, (b.watch ⟨text, some limit⟩ rounds).Within limit.toNat
  | .mk locals steps => .bind (watchEnter_within steps locals) fun _ => Step.watchAll_within steps

theorem Step.watchAll_within :
    ∀ steps : List Step, (Step.watchAll ⟨text, some limit⟩ rounds steps).Within limit.toNat
  | [] => .pure ()
  | step :: rest => .bind (Step.watch_within step) fun _ => Step.watchAll_within rest

end

/-- Under a limit a render ends, at the limit if not before. -/
theorem Program.ends_of_limited (program : Program) (model : Value) (text : String) (limit : UInt64) :
    ∃ result k, k ≤ limit.toNat + 1 ∧ program.Ends ⟨text, some limit⟩ model result k := by
  by_cases h : ∃ result k, program.Ends ⟨text, none⟩ model result k
  · obtain ⟨result, k, he⟩ := h
    by_cases hk : k ≤ limit.toNat
    · exact ⟨result, k, by omega, he.within hk⟩
    · exact ⟨_, _, Nat.le_refl _, he.beyond (Nat.lt_of_not_le hk)⟩
  · exact ⟨_, _, Nat.le_refl _, Program.limited_of_not_ends h⟩

end Limited

/--
A render ends under any limit below the largest count. The count of rounds then goes at most one beyond
the limit, in any part of the run, so it does not overflow. Without a limit a render ends if the program
has no `loop` step.
-/
theorem render_finishes {program : Program} (h : program.InRange) (model : Value) (text : String) :
    (∀ limit : UInt64, limit.toNat < UInt64.size - 1 →
      (∃ k, k ≤ limit.toNat + 1 ∧ program.Finishes ⟨text, some limit⟩ model k) ∧
        ∀ rounds count, .tick count ∈ program.events ⟨text, some limit⟩ rounds model →
          count ≤ limit.toNat + 1 ∧ count < UInt64.size) ∧
      (program.body.LoopFree → ∃ k, program.Finishes ⟨text, none⟩ model k) := by
  refine ⟨fun limit hl => ⟨?_, fun rounds count hc => ?_⟩, fun hfree => ?_⟩
  · obtain ⟨result, k, hk, he⟩ := program.ends_of_limited model text limit
    exact ⟨k, hk, he.finishes h⟩
  · have hcount := (Block.watch_within program.body (program.start model) (Nat.zero_le _)).1 count hc
    exact ⟨hcount, by omega⟩
  · obtain ⟨result, k, he⟩ := Program.ends_of_loopFree hfree ⟨text, none⟩ model
    exact ⟨k, he.finishes h⟩

/-- A loop without end whose update is another one. -/
def foreverTwice : Program :=
  ⟨.mk [] [.loop [] (.write "") (.const (.bool true))
    (.loop [] (.write "") (.const (.bool true)) (.write "b") (.mk [] [])) (.mk [] [.write "a"])], 0⟩

/-- The loop in the update is stopped by the second tick; `twice` has no `loop` step and needs no limit. -/
theorem render_finishes_foreverTwice :
    (foreverTwice.InRange ∧ (∃ k, k ≤ 2 ∧ foreverTwice.Finishes ⟨"", some 1⟩ .null k) ∧
      .tick 2 ∈ foreverTwice.events ⟨"", some 1⟩ 3 .null ∧ 2 < UInt64.size) ∧
      twice.InRange ∧ twice.body.LoopFree ∧ ∃ k, twice.Finishes ⟨"", none⟩ .null k := by
  have inRange : foreverTwice.InRange := by
    simp [foreverTwice, Program.InRange, Block.InRange, Block.Every, Step.EveryAll, Step.Every, Term.InRange, Term.Every]
  have inRange' : twice.InRange := by
    simp [twice, Program.InRange, Block.InRange, Block.Every, Step.EveryAll, Step.Every, Term.InRange, Term.Every]
  have loopFree : twice.body.LoopFree := by
    simp [twice, Block.LoopFree, Step.LoopFreeAll, Step.LoopFree]
  have ticks : .tick 2 ∈ foreverTwice.events ⟨"", some 1⟩ 3 .null := by decide
  obtain ⟨finishes, counts⟩ := (render_finishes inRange .null "").1 1 (by decide)
  exact ⟨⟨inRange, finishes, ticks, (counts 3 2 ticks).2⟩, inRange', loopFree,
    (render_finishes inRange' .null "").2 loopFree⟩

end Stencil
