import Mathlib
import Stencil.Proofs.Initialisation
import Stencil.Proofs.Mapping
/-!
# Programs without resets

A block and the head of a loop reset the slots that they declare. A run whose uses are initialised does
not notice (`Step.watch_tracks`): the slots that it may use hold the same with and without the resets. So
a compiled program that declares no variable in the update of a loop renders the same without them
(`compile_initialised`).
-/

namespace Stencil

/-! ## Runs that track another -/

/-- Empties the reset lists of all blocks and loop heads. -/
def Mapping.withoutResets : Mapping := ⟨id, id, id, fun _ => []⟩

section Tracks
variable {σ α β : Type} {R : List Event → σ → σ → Prop}

/--
From states related by the past, a run whose uses are initialised does what the other run does, and what
happens on its way relates the states in which they end.
-/
def Watched.Tracks (R : List Event → σ → σ → Prop) (x : Watched σ α) (y : EStateM Halt σ α) : Prop :=
  ∀ start past, Initialised past (x.events start) →
    Agrees (fun s s' => s = start ∧ R past s s') (R (past ++ x.events start)) x.run y

theorem Watched.Tracks.noting {event : Event} {x y : EStateM Halt σ α}
    (h : ∀ past, Initialised past [event] → Agrees (R past) (R (past ++ [event])) x y) :
    (Watched.noting event x).Tracks R y :=
  fun _ past hi => (h past hi).weaken fun _ _ hs => hs.2

theorem Watched.Tracks.silent {x y : EStateM Halt σ α} (h : ∀ past, Agrees (R past) (R past) x y) :
    (Watched.silent x).Tracks R y := by
  intro start past _
  change Agrees _ (R (past ++ [])) x y
  rw [List.append_nil]
  exact (h past).weaken fun _ _ hs => hs.2

theorem Watched.Tracks.pure (a : α) : (Pure.pure a : Watched σ α).Tracks R (Pure.pure a) :=
  .silent fun _ => .pure a

theorem Watched.Tracks.bind {x : Watched σ α} {y : EStateM Halt σ α} {f : α → Watched σ β} {g : α → EStateM Halt σ β}
    (hx : x.Tracks R y) (hf : ∀ a, (f a).Tracks R (g a)) : (x >>= f).Tracks R (y >>= g) := by
  rintro start past hi s s' ⟨rfl, hR⟩
  rw [Watched.events_bind] at hi ⊢
  rw [Watched.run_bind]
  have hxy := hx s past hi.left s s' ⟨rfl, hR⟩
  cases hxs : x.run s with
  | ok a t =>
    rw [hxs] at hi
    cases hys : y s' with
    | ok b t' =>
      rw [hxs, hys] at hxy
      obtain ⟨rfl, ht⟩ := hxy
      rw [bind_of_ok hxs, bind_of_ok hys, ← List.append_assoc]
      exact hf a t (past ++ x.events s) hi.right t t' ⟨rfl, ht⟩
    | error f t' =>
      rw [hxs, hys] at hxy
      exact hxy.elim
  | error e t =>
    cases hys : y s' with
    | ok b t' =>
      rw [hxs, hys] at hxy
      exact hxy.elim
    | error f t' =>
      rw [hxs, hys] at hxy
      rw [bind_of_error hxs, bind_of_error hys]
      exact hxy

/-- The other run may pass over what is only noted. -/
theorem Watched.Tracks.noted {event : Event} {x : Watched σ α} {y : EStateM Halt σ α}
    (he : ∀ past s s', R past s s' → R (past ++ [event]) s s') (hx : x.Tracks R y) :
    (Watched.noting event (Pure.pure ()) >>= fun _ => x).Tracks R y := by
  have noted : (Watched.noting event (Pure.pure ())).Tracks R (Pure.pure ()) :=
    .noting fun past _ s s' hs => ⟨rfl, he past s s' hs⟩
  have h := noted.bind fun _ => hx
  rwa [pure_bind] at h

theorem Watched.Tracks.forM {f : β → Watched σ Unit} {g : β → EStateM Halt σ Unit} (hf : ∀ b, (f b).Tracks R (g b))
    (l : List β) : (l.forM f).Tracks R (l.forM g) := by
  induction l with
  | nil => exact .pure ()
  | cons b l ih => exact .bind (hf b) fun _ => ih

theorem Watched.Tracks.loop {R : List Event → Machine → Machine → Prop} {test : Watched Machine Bool}
    {test' : Exec Bool} {round : Watched Machine Unit} {round' : Exec Unit} (ht : test.Tracks R test')
    (hr : round.Tracks R round') (rounds : Nat) :
    (Watched.loop test round rounds).Tracks R (Exec.loop test' round' rounds) := by
  induction rounds with
  | zero => exact .silent fun _ => .throw _
  | succ rounds ih =>
    refine .bind ht fun b => ?_
    cases b with
    | true => exact .bind hr fun _ => ih
    | false => exact .pure ()

end Tracks

/-! ## Slots that are alike where they are bound -/

/-- There are `n` slots on both sides, and those bound by the past hold the same. -/
structure Alike (n : Nat) (past : List Event) (slots slots' : Slots) : Prop where
  size : slots.size = n
  size' : slots'.size = n
  same : ∀ slot, Bound slot past → slots[slot]? = slots'[slot]?

/-- The machines differ in slots that are not bound, at most. -/
def AlikeMachine (n : Nat) (past : List Event) (m m' : Machine) : Prop :=
  ∃ slots', Alike n past m.slots slots' ∧ m' = { m with slots := slots' }

section Alike
variable {n slot : Nat} {past : List Event} {slots slots' : Slots} {m m' : Machine}

theorem Alike.mono {past' : List Event} (h : Alike n past slots slots')
    (hb : ∀ slot, Bound slot past' → Bound slot past) : Alike n past' slots slots' where
  size := h.size
  size' := h.size'
  same slot hs := h.same slot (hb slot hs)

/-- After an event that binds nothing no further slots are bound. -/
theorem Alike.after {event : Event} (h : Alike n past slots slots') (he : ∀ slot, event ≠ .bind slot) :
    Alike n (past ++ [event]) slots slots' :=
  h.mono fun slot hs => ((bound_concat hs).resolve_left (he slot)).1

theorem Alike.set (h : Alike n past slots slots') (v : Value) :
    Alike n (past ++ [.bind slot]) (slots.setIfInBounds slot v) (slots'.setIfInBounds slot v) where
  size := by simpa using h.size
  size' := by simpa using h.size'
  same t ht := by
    have hsize := h.size
    have hsize' := h.size'
    by_cases heq : slot = t
    · subst heq
      simp only [Array.getElem?_setIfInBounds_self, hsize, hsize']
    · rw [Array.getElem?_setIfInBounds_ne heq, Array.getElem?_setIfInBounds_ne heq]
      refine h.same t ((bound_concat ht).resolve_left fun hbind => heq ?_).1
      simpa using hbind

theorem Alike.reset (h : Alike n past slots slots') {locals : List Nat} {cleared : Slots}
    (hsize : cleared.size = slots.size)
    (hget : ∀ s, cleared[s]? = if s ∈ locals then some .undefined else slots[s]?) :
    Alike n (past ++ [.enter locals]) cleared slots' where
  size := hsize.trans h.size
  size' := h.size'
  same t ht := by
    obtain ⟨hbound, hout⟩ := (bound_concat ht).resolve_left (by simp)
    rw [hget, if_neg (hout locals rfl)]
    exact h.same t hbound

end Alike

section Terms
variable {n : Nat} {past : List Event} {model : Value}

theorem Eval.get_alike {slot : Nat} (h : Bound slot past) :
    Agrees (Alike n past) (Alike n past) (Eval.get slot) (Eval.get slot) := by
  intro slots slots' ha
  unfold Eval.get
  rw [← ha.same slot h]
  cases slots[slot]? with
  | some v => exact ⟨rfl, ha⟩
  | none => rfl

theorem Eval.set_alike (slot : Nat) (v : Value) :
    Agrees (Alike n past) (Alike n (past ++ [.bind slot])) (Eval.set slot v) (Eval.set slot v) := by
  intro slots slots' ha
  unfold Eval.set
  rw [ha.size, ha.size']
  by_cases h : slot < n
  · rw [if_pos h, if_pos h]
    exact ⟨rfl, ha.set v⟩
  · rw [if_neg h, if_neg h]

theorem Term.update_alike (op : UpdateOp) {x : Local} (h : Bound x.slot past) :
    Agrees (Alike n past) (Alike n past) ((Term.update op x).eval model) ((Term.update op x).eval model) := by
  refine .bind (Eval.get_alike h) fun v => ?_
  cases op.apply? v with
  | none => exact .throw _
  | some w =>
    -- the slot that is set stays one of those that hold the same
    refine .bind ((Eval.set_alike x.slot w).relax fun _ _ ha => ?_) fun _ => .pure w
    exact ha.mono fun _ hs => hs.append (by simp)

mutual

theorem Term.watch_tracks : ∀ e : Term, (e.watch model).Tracks (Alike n) (e.eval model)
  | .const _ | .model _ => .pure _
  | .variable _ => .noting fun _ hi => (Eval.get_alike hi.bound).relax fun _ _ ha => ha.after (by simp)
  | .update op _ => .noting fun _ hi => (Term.update_alike op hi.bound).relax fun _ _ ha => ha.after (by simp)
  | .member target _ => .bind (Term.watch_tracks target) fun _ => .pure _
  | .index target position =>
    .bind (Term.watch_tracks target) fun _ => .bind (Term.watch_tracks position) fun _ => .pure _
  | .call target _ args =>
    .bind (Term.watch_tracks target) fun _ =>
      .bind (Term.watchArgs_tracks args) fun _ => .silent fun _ => Eval.ofExcept_agrees_self _
  | .unary _ operand => .bind (Term.watch_tracks operand) fun _ => .silent fun _ => Eval.ofExcept_agrees_self _
  | .binary _ left right => by
    refine .bind (Term.watch_tracks left) fun v => ?_
    split
    · exact .pure v
    · exact .bind (Term.watch_tracks right) fun _ => .silent fun _ => Eval.ofExcept_agrees_self _
  | .conditional condition ifTrue ifFalse => by
    refine .bind (Term.watch_tracks condition) fun v => ?_
    split
    · exact Term.watch_tracks ifTrue
    · exact Term.watch_tracks ifFalse

theorem Term.watchArgs_tracks : ∀ es : List Term, (Term.watchArgs model es).Tracks (Alike n) (Term.evalArgs model es)
  | [] => .pure _
  | e :: rest => .bind (Term.watch_tracks e) fun _ => .bind (Term.watchArgs_tracks rest) fun _ => .pure _

end

end Terms

/-! ## Steps without resets -/

section Machines
variable {n : Nat} {past : List Event} {options : Options} {rounds : Nat}

/-- What runs on slots alone leaves the rest of the machines the same. -/
theorem Exec.eval_alike {α : Type} {past' : List Event} {x y : Value → Eval α}
    (h : ∀ model, Agrees (Alike n past) (Alike n past') (x model) (y model)) :
    Agrees (AlikeMachine n past) (AlikeMachine n past') (Exec.eval x) (Exec.eval y) := by
  rintro m _ ⟨slots', ha, rfl⟩
  have hxy := h m.model m.slots slots' ha
  unfold Exec.eval
  cases hx : x m.model m.slots <;> cases hy : y m.model slots' <;> simp_all [AlikeMachine]

theorem Term.watchRun_tracks (e : Term) : e.watchRun.Tracks (AlikeMachine n) e.run := by
  rintro start past hi m _ ⟨rfl, slots', ha, rfl⟩
  have htracks : (e.watch m.model).Tracks (Alike n) (e.eval m.model) := Term.watch_tracks e
  have hxy := htracks m.slots past hi m.slots slots' ⟨rfl, ha⟩
  rw [Term.watch_run] at hxy
  rw [Term.watchRun_run]
  simp only [Term.run, Exec.eval]
  cases hx : e.eval m.model m.slots <;> cases hy : e.eval m.model slots' <;>
    simp_all [AlikeMachine, Term.watchRun, Watched.eval]

theorem watchBind_tracks (x : Local) (v : Value) :
    (watchBind x v).Tracks (AlikeMachine n) (Exec.eval fun _ => Eval.set x.slot v) :=
  .noting fun _ _ => Exec.eval_alike fun _ => Eval.set_alike x.slot v

theorem write_alike (s : String) :
    Agrees (AlikeMachine n past) (AlikeMachine n past) (Exec.write s) (Exec.write s) := by
  rintro m _ ⟨slots', ha, rfl⟩
  exact ⟨rfl, slots', ha, rfl⟩

theorem Watched.tick_tracks (limit : Option UInt64) :
    (Watched.tick limit).Tracks (AlikeMachine n) (Exec.tick limit) := by
  rintro start past hi m _ ⟨rfl, slots', ha, rfl⟩
  have ha' : Alike n (past ++ (Watched.tick limit).events m) m.slots slots' := ha.after (by simp)
  rw [Watched.run_tick]
  rcases Exec.tick_cases limit m.iterations with h | ⟨fault, h⟩
  · rw [h m rfl, h { m with slots := slots' } rfl]
    exact ⟨rfl, slots', ha', rfl⟩
  · rw [h m rfl, h { m with slots := slots' } rfl]

theorem Place.watchStore_tracks {place : Place} (h : place.InRange n) (v : Value) :
    (place.watchStore v).Tracks (AlikeMachine n) (Exec.store place v) := by
  obtain ⟨x | name, path⟩ := place
  · refine .noting fun past hi => ?_
    rintro m _ ⟨slots', ha, rfl⟩
    have hlt : x.slot < n := h
    rw [store_variable (ha.size.symm ▸ hlt), store_variable (by simpa [ha.size'] using hlt)]
    simp only [Local.value, ← ha.same x.slot hi.bound]
    cases v.store path (m.slots[x.slot]?.getD .undefined) with
    | error fault => rfl
    | ok updated =>
      refine ⟨trivial, _, ?_, rfl⟩
      exact (ha.set updated).mono fun slot hs => ((bound_concat hs).resolve_left (by simp)).1.append (by simp)
  · refine .silent fun past => ?_
    rintro m _ ⟨slots', ha, rfl⟩
    rw [store_model, store_model]
    simp only
    cases storeModel v name path m.model with
    | error fault => rfl
    | ok updated => exact ⟨trivial, slots', ha, rfl⟩

/-- A scope is entered with or without a reset of the slots that it owns. -/
theorem watchEnter_tracks {steps : List Step} {locals : List Nat}
    (hl : locals = (Step.declaredAll steps).map Local.slot) (hn : ∀ s ∈ locals, s < n) :
    (watchEnter steps locals).Tracks (AlikeMachine n) (Exec.eval fun _ => Eval.reset []) := by
  refine .noting fun past _ => ?_
  rw [← hl]
  refine Exec.eval_alike fun _ slots slots' ha => ?_
  obtain ⟨cleared, hr, hsize, hget⟩ := Eval.reset_ok fun s hs => ha.size.symm ▸ hn s hs
  rw [hr]
  exact ⟨rfl, ha.reset hsize hget⟩

mutual

/-- Steps whose uses are initialised do without resets. -/
theorem Step.watch_tracks : ∀ step : Step, step.LocalsExact →
    step.Every (Term.InRange n) (· < n) (Place.InRange n) →
      (step.watch options rounds).Tracks (AlikeMachine n) ((step.map .withoutResets).run options rounds)
  | .write s, _, _ => .silent fun _ => write_alike s
  | .emit e, _, _ => .bind e.watchRun_tracks fun _ => .silent fun _ => write_alike _
  | .declare x e, _, _ | .assign x e, _, _ => .bind e.watchRun_tracks fun v => watchBind_tracks x v
  | .store _ e, _, hr => .bind e.watchRun_tracks fun v => Place.watchStore_tracks hr.1 v
  | .eval e, _, _ | .label _ (some e), _, _ => by
    change Watched.Tracks _ _ (discard e.run)
    rw [discard_eq_bind]
    exact .bind e.watchRun_tracks fun _ => .pure ()
  | .label _ none, _, _ => .pure ()
  | .block body, hl, hr => Block.watch_tracks body hl hr
  | .when condition body, hl, hr => by
    refine .bind condition.watchRun_tracks fun v => ?_
    split
    · exact Block.watch_tracks body hl hr.2
    · exact .pure ()
  | .choose condition body otherwise, hl, hr => by
    refine .bind condition.watchRun_tracks fun v => ?_
    split
    · exact Block.watch_tracks body hl.1 hr.2.1
    · exact Block.watch_tracks otherwise hl.2 hr.2.2
  | .loop locals initial condition update body, hl, hr => by
    obtain ⟨hlocals, li, lu, lb⟩ := hl
    obtain ⟨hn, ri, -, ru, rb⟩ := hr
    refine .bind (watchEnter_tracks hlocals hn) fun _ => .bind (Step.watch_tracks initial li ri) fun _ => ?_
    refine .loop (.bind condition.watchRun_tracks fun _ => .pure _) (.bind (Watched.tick_tracks _) fun _ => ?_) rounds
    exact .bind (Block.watch_tracks body lb rb) fun _ => Step.watch_tracks update lu ru
  | .each x collection body, hl, hr => by
    refine .bind collection.watchRun_tracks fun v => .bind (.silent fun _ => Exec.ofExcept_agrees v.items) fun items => ?_
    refine .forM (fun item => .bind (Watched.tick_tracks _) fun _ => ?_) items
    exact .noted (fun _ _ _ ⟨slots', ha, hm⟩ => ⟨slots', ha.after (by simp), hm⟩)
      (.bind (watchBind_tracks x item) fun _ => Block.watch_tracks body hl hr.2.2)
  | .switch subject body, hl, hr => by
    change Watched.Tracks _ _ (do discard subject.run; Block.run options rounds (body.map .withoutResets))
    rw [discard_eq_bind, bind_assoc]
    simp only [pure_bind]
    exact .bind subject.watchRun_tracks fun _ => Block.watch_tracks body hl hr.2

theorem Block.watch_tracks : ∀ b : Block, b.LocalsExact → b.InRange n →
    (b.watch options rounds).Tracks (AlikeMachine n) ((b.map .withoutResets).run options rounds)
  | .mk _ steps, hl, hr =>
    .bind (watchEnter_tracks hl.1 hr.1) fun _ => Step.watchAll_tracks steps hl.2 hr.2

theorem Step.watchAll_tracks : ∀ steps : List Step, Step.LocalsExactAll steps →
    Step.EveryAll (Term.InRange n) (· < n) (Place.InRange n) steps →
      (Step.watchAll options rounds steps).Tracks (AlikeMachine n)
        (Step.runAll options rounds (Step.mapAll .withoutResets steps))
  | [], _, _ => .pure ()
  | step :: rest, hl, hr => .bind (Step.watch_tracks step hl.1 hr.1) fun _ => Step.watchAll_tracks rest hl.2 hr.2

end

end Machines

/-! ## Programs of templates -/

/-- The program with no slot on any reset list. -/
def Program.withoutResets (program : Program) : Program := ⟨program.body.map .withoutResets, program.slots⟩

theorem Program.render_withoutResets {program : Program} {options : Options} {rounds : Nat} {model : Value}
    (hl : program.body.LocalsExact) (hr : program.InRange)
    (hi : Initialised [] (program.events options rounds model)) :
    program.withoutResets.render options rounds model = program.render options rounds model := by
  have alike : Alike program.slots [] (program.start model).slots (program.start model).slots :=
    ⟨by simp [Program.start], by simp [Program.start], fun _ _ => rfl⟩
  have start : program.withoutResets.start model = program.start model := rfl
  have body : program.withoutResets.body = program.body.map .withoutResets := rfl
  have tracks := Block.watch_tracks program.body hl hr (program.start model) [] hi
  rw [Block.watch_run] at tracks
  unfold Program.render
  rw [start, body]
  rcases tracks.ends ⟨rfl, _, alike, rfl⟩ with ⟨_, m, _, hm, hm', slots', -, rfl⟩ | ⟨e, m, m', hm, hm'⟩
  · simp only [hm, hm']
  · simp only [hm, hm']

/--
In the program of a template that declares no variable in the update of a loop, every read, update or store
of a slot comes after a declaration, an assignment or an item that bound the slot since the scope that owns
it was last entered. So the resets change no render.
-/
theorem compile_initialised {segments : List Segment} {program : Program}
    (h : (compile segments).result = .ok program) (noLate : program.body.NoLate) (options : Options)
    (rounds : Nat) (model : Value) :
    Initialised [] (program.events options rounds model) ∧
      program.withoutResets.render options rounds model = program.render options rounds model := by
  have apart : Apart program.body.introduced [] := by
    refine ⟨?_, by simp⟩
    rw [compile_introduced h]
    exact List.nodup_range
  have readies : (program.body.watch options rounds).Readies [] [] :=
    Block.watch_readies program.body [] (compile_resolved h) noLate apart
  have initialised : Initialised [] (program.events options rounds model) :=
    (readies (program.start model) [] (by simp)).1
  exact ⟨initialised, Program.render_withoutResets (compile_localsExact h) (compile_inRange h) initialised⟩

/-- Each round of the loop declares `t` afresh, and each item of the inner loop updates it and declares `u`. -/
def refreshed : List Segment := [
  .statement (.loop (.assign (.name "i") (.literal "true")) (.name "i")
    (.statement (.assign (.name "i") (.literal "false"))) [
      .statement (.assign (.name "t") (.name "i")),
      .statement (.each "x" (.name "items") [
        .statement (.assign (.name "u") (.name "x")), .expr (.unary "++" (.name "t")), .expr (.name "u")]),
      .expr (.name "t")])]

theorem compile_initialised_refreshed : ∃ program,
    (compile refreshed).result = .ok program ∧ program.body.NoLate ∧
      ∀ options rounds model, Initialised [] (program.events options rounds model) ∧
        program.withoutResets.render options rounds model = program.render options rounds model := by
  have noLate : (Block.mk [] [
      .loop [0] (.declare ⟨0, "i"⟩ (.const (.bool true))) (.variable ⟨0, "i"⟩) (.assign ⟨0, "i"⟩ (.const (.bool false)))
        (.mk [1] [
          .declare ⟨1, "t"⟩ (.variable ⟨0, "i"⟩),
          .each ⟨2, "x"⟩ (.model "items") (.mk [3] [
            .declare ⟨3, "u"⟩ (.variable ⟨2, "x"⟩), .emit (.update .increment ⟨1, "t"⟩), .emit (.variable ⟨3, "u"⟩)]),
          .emit (.variable ⟨1, "t"⟩)])]).NoLate := by
    simp [Block.NoLate, Step.NoLateAll, Step.NoLate, Step.declared]
  refine ⟨⟨_, 4⟩, ?compiles, noLate, compile_initialised ?compiles noLate⟩
  rfl

end Stencil
