import Mathlib
import Stencil.Proofs.Events
import Stencil.Proofs.Faithful
/-!
# Slots are bound before they are used

A use of a slot is initialised when the slot has been bound since the scope that owns it was last entered
(`Initialised`). Where the update of a loop declares no variable, all uses are (`Step.watch_readies`):
what is in scope where a step stands has been bound when the step runs.
-/

namespace Stencil

/-! ## Bound slots -/

/-- The slot was bound, and no scope that owns it has been entered since. -/
def Bound (slot : Nat) (past : List Event) : Prop :=
  ∃ earlier later, past = earlier ++ .bind slot :: later ∧ ∀ slots, .enter slots ∈ later → slot ∉ slots

/-- Coming after the past, each use of a slot finds it bound. -/
def Initialised (past events : List Event) : Prop :=
  ∀ before slot after, events = before ++ .use slot :: after → Bound slot (past ++ before)

section Bound
variable {slot : Nat} {past events a b : List Event}

theorem Bound.append (h : Bound slot past) (he : ∀ slots, .enter slots ∈ events → slot ∉ slots) :
    Bound slot (past ++ events) := by
  obtain ⟨earlier, later, rfl, hl⟩ := h
  refine ⟨earlier, later ++ events, by simp, fun slots hs => ?_⟩
  rcases List.mem_append.1 hs with hs | hs
  · exact hl slots hs
  · exact he slots hs

theorem Bound.of_bind (slot : Nat) (past : List Event) : Bound slot (past ++ [.bind slot]) :=
  ⟨past, [], rfl, by simp⟩

/-- What the last event says of a slot that is bound after it. -/
theorem bound_concat {event : Event} (h : Bound slot (past ++ [event])) :
    event = .bind slot ∨ (Bound slot past ∧ ∀ slots, event = .enter slots → slot ∉ slots) := by
  obtain ⟨earlier, later, heq, hl⟩ := h
  rcases List.eq_nil_or_concat later with rfl | ⟨later, last, rfl⟩
  · obtain ⟨-, hlast⟩ := List.append_inj' heq rfl
    exact .inl (by simpa using hlast)
  · have heq' : past ++ [event] = (earlier ++ .bind slot :: later) ++ [last] := by simpa using heq
    obtain ⟨hpast, hlast⟩ := List.append_inj' heq' rfl
    have hevent : event = last := by simpa using hlast
    refine .inr ⟨⟨earlier, later, hpast, fun slots hs => hl slots (by simp [hs])⟩, fun slots hs => ?_⟩
    exact hl slots (by simp [← hevent, hs])

theorem Initialised.nil (past : List Event) : Initialised past [] := by
  intro before slot after h
  simp at h

theorem Initialised.append (ha : Initialised past a) (hb : Initialised (past ++ a) b) :
    Initialised past (a ++ b) := by
  intro before slot after h
  rcases List.append_eq_append_iff.1 h with ⟨l, rfl, hl⟩ | ⟨l, rfl, hl⟩
  · rw [← List.append_assoc]
    exact hb l slot after hl
  · -- the use is the first event of what is left of `a`, or of `b` if nothing is left
    cases l with
    | nil =>
      have := hb [] slot after hl.symm
      simpa using this
    | cons event l =>
      cases hl
      exact ha before slot l rfl

theorem Initialised.left (h : Initialised past (a ++ b)) : Initialised past a := by
  rintro before slot after rfl
  exact h before slot (after ++ b) (by simp)

theorem Initialised.right (h : Initialised past (a ++ b)) : Initialised (past ++ a) b := by
  rintro before slot after rfl
  have := h (a ++ before) slot after (by simp)
  rwa [← List.append_assoc] at this

theorem Initialised.bound (h : Initialised past [.use slot]) : Bound slot past := by
  simpa using h [] slot [] rfl

end Bound

/-! ## What runs leave bound -/

section Readies
variable {σ α β : Type} {binders binders' binders'' : List Local}

/--
If the first variables are bound, all uses on the way are initialised, and when the run comes to its end
the second variables are bound.
-/
def Watched.Readies (binders binders' : List Local) (x : Watched σ α) : Prop :=
  ∀ s past, (∀ y ∈ binders, Bound y.slot past) →
    Initialised past (x.events s) ∧
      ∀ a s', x.run s = .ok a s' → ∀ y ∈ binders', Bound y.slot (past ++ x.events s)

/-- The event uses no other slots than the variables' and leaves them bound. -/
def Event.Mild (binders : List Local) : Event → Prop
  | .use slot => ∃ y ∈ binders, y.slot = slot
  | .enter slots => ∀ y ∈ binders, y.slot ∉ slots
  | .bind _ | .tick _ => True

theorem Watched.Readies.of_mild {x : Watched σ α} (h : x.Only (Event.Mild binders)) : x.Readies binders binders := by
  intro s past hb
  constructor
  · intro before slot after heq
    have mild : ∀ event ∈ before ++ .use slot :: after, event.Mild binders := fun event he => h s event (heq ▸ he)
    obtain ⟨y, hy, rfl⟩ := mild (.use slot) (by simp)
    refine (hb y hy).append fun slots hs => ?_
    exact mild (.enter slots) (List.mem_append_left _ hs) y hy
  · intro a s' _ y hy
    exact (hb y hy).append fun slots hs => h s _ hs y hy

theorem Watched.Readies.silent (run : EStateM Halt σ α) : (Watched.silent run).Readies binders binders :=
  .of_mild (.silent run)

theorem Watched.Readies.pure (a : α) : (Pure.pure a : Watched σ α).Readies binders binders := .of_mild (.pure a)

theorem Watched.Readies.weaken {x : Watched σ α} (h : x.Readies binders binders')
    (hb : ∀ y ∈ binders'', y ∈ binders') : x.Readies binders binders'' := by
  intro s past hp
  obtain ⟨uses, ends⟩ := h s past hp
  exact ⟨uses, fun a s' hr y hy => ends a s' hr y (hb y hy)⟩

theorem Watched.Readies.bind {x : Watched σ α} {f : α → Watched σ β} (hx : x.Readies binders binders')
    (hf : ∀ a, (f a).Readies binders' binders'') : (x >>= f).Readies binders binders'' := by
  intro s past hb
  obtain ⟨uses, ends⟩ := hx s past hb
  rw [Watched.events_bind]
  cases hr : x.run s with
  | ok a s₁ =>
    obtain ⟨uses', ends'⟩ := hf a s₁ (past ++ x.events s) (ends a s₁ hr)
    refine ⟨uses.append uses', fun c s' hc y hy => ?_⟩
    rw [Watched.run_bind, bind_of_ok hr] at hc
    rw [← List.append_assoc]
    exact ends' c s' hc y hy
  | error halt s₁ =>
    refine ⟨uses.append (.nil _), fun c s' hc => ?_⟩
    rw [Watched.run_bind, bind_of_error hr] at hc
    cases hc

theorem Watched.Readies.forM {f : β → Watched σ Unit} (hf : ∀ b, (f b).Readies binders binders) (l : List β) :
    (l.forM f).Readies binders binders := by
  induction l with
  | nil => exact .pure ()
  | cons b l ih => exact .bind (hf b) fun _ => ih

theorem Watched.Readies.loop {test : Watched Machine Bool} {round : Watched Machine Unit}
    (ht : test.Readies binders binders) (hr : round.Readies binders binders) (rounds : Nat) :
    (Watched.loop test round rounds).Readies binders binders := by
  induction rounds with
  | zero => exact .silent _
  | succ rounds ih =>
    refine .bind ht fun b => ?_
    cases b with
    | true => exact .bind hr fun _ => ih
    | false => exact .pure ()

theorem Watched.tick_readies (limit : Option UInt64) : (Watched.tick limit).Readies binders binders := by
  refine .of_mild fun m event he => ?_
  rw [List.mem_singleton.1 he]
  trivial

theorem watchBind_readies (x : Local) (v : Value) : (watchBind x v).Readies binders (x :: binders) := by
  intro m past hb
  constructor
  · intro before slot after heq
    -- a binding is not a use
    rcases before with _ | ⟨event, before⟩
    · cases heq
    · simp [watchBind, Watched.noting] at heq
  · intro a m' _ y hy
    rcases List.mem_cons.1 hy with rfl | hy
    · exact .of_bind _ _
    · refine (hb y hy).append fun slots hs => ?_
      cases List.mem_singleton.1 hs

theorem Term.watchRun_readies {e : Term} (h : e.Resolved binders) : e.watchRun.Readies binders binders :=
  .of_mild (Term.watchRun_only (fun x hx => ⟨x, hx, rfl⟩) (Term.every_of_resolved (fun _ hx => hx) e h))

theorem Place.watchStore_readies {place : Place} (h : place.root.Resolved binders) (v : Value) :
    (place.watchStore v).Readies binders binders := by
  obtain ⟨x | name, path⟩ := place
  · exact .of_mild (.noting ⟨x, List.mem_of_find?_eq_some h, rfl⟩ _)
  · exact .silent _

end Readies

/-! ## Binders and the slots of what they enclose -/

/-- The slots are distinct, and none of them belongs to a variable in scope. -/
structure Apart (slots : List Nat) (binders : List Local) : Prop where
  distinct : slots.Nodup
  unseen : ∀ y ∈ binders, y.slot ∉ slots

section Apart
variable {slots more : List Nat} {binders : List Local}

theorem Apart.left (h : Apart (slots ++ more) binders) : Apart slots binders where
  distinct := h.distinct.of_append_left
  unseen y hy hs := h.unseen y hy (List.mem_append_left _ hs)

theorem Apart.right (h : Apart (slots ++ more) binders) : Apart more binders where
  distinct := h.distinct.of_append_right
  unseen y hy hs := h.unseen y hy (List.mem_append_right _ hs)

theorem Apart.bind {x : Local} (h : Apart (x.slot :: slots) binders) : Apart slots (x :: binders) where
  distinct := h.distinct.of_cons
  unseen y hy hs := by
    rcases List.mem_cons.1 hy with rfl | hy
    · exact (List.nodup_cons.1 h.distinct).1 hs
    · exact h.unseen y hy (List.mem_cons_of_mem _ hs)

/-- What a step declares is apart from what comes after it. -/
theorem Apart.declared {step : Step} (h : Apart (step.introduced ++ more) binders) :
    Apart more (step.declared ++ binders) where
  distinct := h.distinct.of_append_right
  unseen y hy hs := by
    rcases List.mem_append.1 hy with hy | hy
    · exact List.disjoint_of_nodup_append h.distinct (Step.declared_introduced hy) hs
    · exact h.unseen y hy (List.mem_append_right _ hs)

theorem watchEnter_readies {steps : List Step} (h : Apart (Step.introducedAll steps) binders) (locals : List Nat) :
    (watchEnter steps locals).Readies binders binders := by
  refine .of_mild (.noting (fun y hy hs => ?_) _)
  obtain ⟨x, hx, heq⟩ := List.mem_map.1 hs
  exact h.unseen y hy (heq ▸ Step.declaredAll_introduced hx)

end Apart

section Steps
variable {options : Options} {rounds : Nat}

mutual

/-- A step finds the variables in scope bound, leaves them bound and binds what it declares. -/
theorem Step.watch_readies : ∀ (step : Step) (binders : List Local), step.Resolved binders → step.NoLate →
    Apart step.introduced binders → (step.watch options rounds).Readies binders (step.declared ++ binders)
  | .write s, _, _, _, _ => .silent (Exec.write s)
  | .emit _, _, h, _, _ => .bind (Term.watchRun_readies h) fun _ => .silent _
  | .declare x _, _, h, _, _ => .bind (Term.watchRun_readies h) fun v => watchBind_readies x v
  | .assign x _, _, h, _, _ =>
    .bind (Term.watchRun_readies h.2) fun v => (watchBind_readies x v).weaken fun _ hy => List.mem_cons_of_mem _ hy
  | .store _ _, _, h, _, _ => .bind (Term.watchRun_readies h.2) fun v => Place.watchStore_readies h.1 v
  | .eval _, _, h, _, _ | .label _ (some _), _, h, _, _ => .bind (Term.watchRun_readies h) fun _ => .pure ()
  | .label _ none, _, _, _, _ => .pure ()
  | .block body, _, h, hn, ha => Block.watch_readies body _ h hn ha
  | .when _ body, _, h, hn, ha => by
    refine .bind (Term.watchRun_readies h.1) fun v => ?_
    split
    · exact Block.watch_readies body _ h.2 hn ha
    · exact .pure ()
  | .choose _ body otherwise, _, h, hn, ha => by
    refine .bind (Term.watchRun_readies h.1) fun v => ?_
    split
    · exact Block.watch_readies body _ h.2.1 hn.1 ha.left
    · exact Block.watch_readies otherwise _ h.2.2 hn.2 ha.right
  | .loop locals initial condition update body, binders, h, hn, ha => by
    obtain ⟨ri, rc, ru, rb⟩ := h
    obtain ⟨hlate, ni, nu, nb⟩ := hn
    -- the head binds in its initial step alone, so that all rounds see the same variables
    rw [hlate, List.nil_append] at rb
    rw [Step.introduced, List.append_assoc] at ha
    have au := ha.declared
    have ab := au.declared
    rw [hlate, List.nil_append] at ab
    have enter : Apart (Step.introducedAll [initial, update]) binders := by
      rw [← List.append_assoc] at ha
      simpa [Step.introducedAll] using ha.left
    have hu := Step.watch_readies update _ ru nu au.left
    rw [hlate, List.nil_append] at hu
    refine .bind (watchEnter_readies enter locals) fun _ =>
      .bind (Step.watch_readies initial binders ri ni ha.left) fun _ => ?_
    refine Watched.Readies.weaken (.loop (.bind (Term.watchRun_readies rc) fun _ => .pure _) ?_ rounds)
      fun _ hy => List.mem_append_right _ hy
    exact .bind (Watched.tick_readies _) fun _ => .bind (Block.watch_readies body _ rb nb ab) fun _ => hu
  | .each x _ body, binders, h, hn, ha => by
    refine .bind (Term.watchRun_readies h.1) fun v => .bind (.silent _) fun items => ?_
    refine .forM (fun item => .bind (Watched.tick_readies _) fun _ => .bind (.of_mild (.noting ?_ _)) fun _ => ?_) items
    · intro y hy
      rw [List.mem_singleton]
      intro heq
      exact ha.unseen y hy (heq ▸ List.mem_cons_self)
    · refine .bind (watchBind_readies x item) fun _ => ?_
      exact (Block.watch_readies body _ h.2 hn ha.bind).weaken fun _ hy => List.mem_cons_of_mem _ hy
  | .switch _ body, _, h, hn, ha =>
    .bind (Term.watchRun_readies h.1) fun _ => Block.watch_readies body _ h.2 hn ha

theorem Block.watch_readies : ∀ (b : Block) (binders : List Local), b.Resolved binders → b.NoLate →
    Apart b.introduced binders → (b.watch options rounds).Readies binders binders
  | .mk locals steps, binders, h, hn, ha => by
    refine .bind (watchEnter_readies ha locals) fun _ => ?_
    exact (Step.watchAll_readies steps binders h hn ha).weaken fun _ hy => List.mem_append_right _ hy

theorem Step.watchAll_readies : ∀ (steps : List Step) (binders : List Local), Step.ResolvedAll binders steps →
    Step.NoLateAll steps → Apart (Step.introducedAll steps) binders →
      (Step.watchAll options rounds steps).Readies binders ((Step.declaredAll steps).reverse ++ binders)
  | [], _, _, _, _ => .pure ()
  | step :: rest, binders, h, hn, ha => by
    have hr := Step.watchAll_readies rest (step.declared ++ binders) h.2 hn.2 ha.declared
    refine .bind (Step.watch_readies step binders h.1 hn.1 ha.left) fun _ => hr.weaken fun y hy => ?_
    simpa [or_assoc] using hy

end

end Steps

end Stencil
