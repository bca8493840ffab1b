import Mathlib
import Stencil.Proofs.Rounds
/-!
# Iteration limits

A render under a limit does what it does without one, up to the round that goes beyond the limit
(`Caps`). Every round that a loop is given is paid for by a tick (`Spends`), so a render without end
meets any limit.
-/

namespace Stencil

/-! ## Ticks pay for rounds -/

/-- The run takes at least `a` rounds, and at least `n` before it runs out of rounds. -/
def Spends (a n : Nat) {α : Type} (x : Exec α) : Prop :=
  ∀ m, match x m with
    | .ok _ m' => m.iterations + a ≤ m'.iterations
    | .error halt m' => m.iterations ≤ m'.iterations ∧ (halt = .exhausted → m.iterations + n ≤ m'.iterations)

section Spends
variable {α β : Type} {a b n : Nat}

theorem Spends.mono {a' n' : Nat} {x : Exec α} (h : Spends a n x) (ha : a' ≤ a) (hn : n' ≤ n) : Spends a' n' x := by
  intro m
  have hm := h m
  cases hx : x m with
  | ok v m' =>
    rw [hx] at hm
    simp only at hm ⊢
    omega
  | error halt m' =>
    rw [hx] at hm
    refine ⟨hm.1, fun he => ?_⟩
    have := hm.2 he
    omega

theorem Spends.of_quiet {x : Exec α} (h : Quiet x) (n : Nat) : Spends 0 n x := by
  intro m
  have hm := h m.iterations m rfl
  cases hx : x m with
  | ok v m' =>
    rw [hx] at hm
    simp only at hm ⊢
    omega
  | error halt m' =>
    rw [hx] at hm
    exact ⟨by omega, fun he => (hm.2 he).elim⟩

theorem Spends.bind {c n' : Nat} {x : Exec α} {f : α → Exec β} (hx : Spends a n x) (hf : ∀ v, Spends b n' (f v))
    (hc : c ≤ a + b) (hn : n ≤ a + n') : Spends c n (x >>= f) := by
  intro m
  have hm := hx m
  cases hxm : x m with
  | error halt m₁ =>
    rw [hxm] at hm
    rw [bind_of_error hxm]
    exact hm
  | ok v m₁ =>
    rw [hxm] at hm
    rw [bind_of_ok hxm]
    have hv := hf v m₁
    simp only at hm
    cases hfm : f v m₁ with
    | ok w m₂ =>
      rw [hfm] at hv
      simp only at hv ⊢
      omega
    | error halt m₂ =>
      rw [hfm] at hv
      refine ⟨by omega, fun he => ?_⟩
      have := hv.2 he
      omega

theorem tick_spends (n : Nat) : Spends 1 n (Exec.tick none) := fun _ => Nat.le_refl _

theorem Spends.le_endState {x : Exec α} (h : Spends a n x) (m : Machine) :
    m.iterations ≤ (endState (x m)).iterations := by
  have hm := h m
  cases hx : x m with
  | ok v m' =>
    rw [hx] at hm
    simp only at hm
    simp only [endState]
    omega
  | error halt m' =>
    rw [hx] at hm
    exact hm.1

end Spends

/-! ## Runs under a limit -/

/-- The second run is the first as long as that stays within the limit, else it stops at the limit. -/
def Caps (limit : UInt64) {α : Type} (x y : Exec α) : Prop :=
  ∀ m : Machine, m.iterations ≤ limit.toNat →
    ((endState (x m)).iterations ≤ limit.toNat ∧ y m = x m) ∨
      (limit.toNat < (endState (x m)).iterations ∧
        ∃ m', y m = .error (.fault (.iterationLimit limit)) m' ∧ m'.iterations = limit.toNat + 1)

section Caps
variable {limit : UInt64} {α β : Type}

theorem Caps.of_quiet {x : Exec α} (h : Quiet x) : Caps limit x x := by
  intro m hm
  have hk := h m.iterations m rfl
  refine .inl ⟨?_, rfl⟩
  cases hx : x m <;> simp_all [endState]

theorem Caps.bind {x y : Exec α} {f g : α → Exec β} (hx : Caps limit x y) (hf : ∀ a, Caps limit (f a) (g a))
    (hs : ∀ a, Spends 0 0 (f a)) : Caps limit (x >>= f) (y >>= g) := by
  intro m hm
  rcases hx m hm with ⟨hle, hy⟩ | ⟨hlt, m', hy, hk⟩
  · cases hxm : x m with
    | ok a m₁ =>
      rw [hxm] at hle
      rw [bind_of_ok hxm, bind_of_ok (hy.trans hxm)]
      exact hf a m₁ hle
    | error halt m₁ =>
      rw [hxm] at hle
      rw [bind_of_error hxm, bind_of_error (hy.trans hxm)]
      exact .inl ⟨hle, rfl⟩
  · -- the limited run has stopped; the other one goes on but its count does not come back
    refine .inr ⟨?_, m', bind_of_error hy, hk⟩
    cases hxm : x m with
    | ok a m₁ =>
      rw [hxm] at hlt
      rw [bind_of_ok hxm]
      exact Nat.lt_of_lt_of_le hlt ((hs a).le_endState m₁)
    | error halt m₁ =>
      rw [hxm] at hlt
      rw [bind_of_error hxm]
      exact hlt

theorem tick_caps : Caps limit (Exec.tick none) (Exec.tick (some limit)) := by
  intro m hm
  rw [Exec.tick_none, Exec.tick_some]
  by_cases h : limit.toNat < m.iterations + 1
  · rw [if_pos h]
    exact .inr ⟨h, _, rfl, by simp only; omega⟩
  · rw [if_neg h]
    exact .inl ⟨Nat.le_of_not_lt h, rfl⟩

end Caps

/-! ## Programs under a limit -/

/-- A run without a limit, which pays for `n` rounds, and the same run under the limit. -/
structure Capped (limit : UInt64) (n : Nat) (α : Type) (x y : Exec α) : Prop where
  spends : Spends 0 n x
  caps : Caps limit x y

section Capped
variable {limit : UInt64} {n : Nat} {α β : Type}

theorem Capped.of_quiet {x : Exec α} (h : Quiet x) : Capped limit n α x x := ⟨.of_quiet h n, .of_quiet h⟩

theorem Capped.bind {n' : Nat} {x y : Exec α} {f g : α → Exec β} (hx : Capped limit n α x y)
    (hf : ∀ a, Capped limit n' β (f a) (g a)) (hn : n ≤ n') : Capped limit n β (x >>= f) (y >>= g) where
  spends := hx.spends.bind (fun a => (hf a).spends) (Nat.le_refl _) (by omega)
  caps := hx.caps.bind (fun a => (hf a).caps) fun a => (hf a).spends.mono (Nat.le_refl _) (Nat.zero_le _)

theorem Capped.tick : Capped limit n Unit (Exec.tick none) (Exec.tick (some limit)) :=
  ⟨(tick_spends n).mono (Nat.zero_le _) (Nat.le_refl _), tick_caps⟩

/-- A loop ticks in every round, so it has paid for its rounds when it runs out of them. -/
theorem Capped.loop {test test' : Exec Bool} {rest rest' : Exec Unit} (ht : Capped limit n Bool test test')
    (hr : Capped limit n Unit rest rest') {rounds : Nat} (h : rounds ≤ n) :
    Capped limit rounds Unit (Exec.loop test (do Exec.tick none; rest) rounds)
      (Exec.loop test' (do Exec.tick (some limit); rest') rounds) := by
  induction rounds with
  | zero => exact ⟨fun m => ⟨Nat.le_refl _, fun _ => Nat.le_refl _⟩, fun m hm => .inl ⟨hm, rfl⟩⟩
  | succ rounds ih =>
    have test : Capped limit (rounds + 1) Bool test test' := ⟨ht.spends.mono (Nat.le_refl _) h, ht.caps⟩
    refine test.bind (fun b => ?_) (Nat.le_refl _)
    cases b with
    | false => exact .of_quiet fun _ => .pure ()
    | true =>
      -- the tick pays for this round, and what follows for the others
      have again := ih (by omega)
      have round : Spends 1 (rounds + 1) (do Exec.tick none; rest) :=
        ((tick_spends n).bind (fun _ => hr.spends) (Nat.le_refl _) (by omega)).mono (Nat.le_refl _) h
      exact ⟨round.bind (fun _ => again.spends) (Nat.zero_le _) (by omega),
        (Capped.tick.bind (fun _ => hr) (Nat.le_refl _)).caps.bind (fun _ => again.caps) fun _ =>
          again.spends.mono (Nat.le_refl _) (Nat.zero_le _)⟩

theorem capped_congruence (limit : UInt64) (rounds : Nat) :
    Congruence (Capped limit rounds) none (some limit) rounds rounds where
  quiet := .of_quiet
  bind hx hf := hx.bind hf (Nat.le_refl _)
  tick := .tick
  loop ht hr := ht.loop hr (Nat.le_refl _)

end Capped

section Program
variable {program : Program} {model : Value} {text : String} {limit : UInt64}

/-- The outcome under a limit, from the outcome without one and the same rounds for each loop. -/
theorem Program.outcome_limited (program : Program) (model : Value) (text : String) (limit : UInt64) (rounds : Nat) :
    ((program.outcome ⟨text, none⟩ rounds model).2 ≤ limit.toNat ∧
        program.outcome ⟨text, some limit⟩ rounds model = program.outcome ⟨text, none⟩ rounds model) ∨
      (limit.toNat < (program.outcome ⟨text, none⟩ rounds model).2 ∧
        program.outcome ⟨text, some limit⟩ rounds model =
          (.error (.fault (.iterationLimit limit)), limit.toNat + 1)) := by
  have hcaps := (Block.run_congr (capped_congruence limit rounds) text program.body).caps (program.start model)
    (Nat.zero_le _)
  rcases hcaps with ⟨hle, hy⟩ | ⟨hlt, m', hy, hk⟩
  · exact .inl ⟨hle, by simp only [Program.outcome, Program.render, hy]⟩
  · exact .inr ⟨hlt, by simp only [Program.outcome, Program.render, hy, endState, hk]⟩

theorem Program.rounds_le_of_exhausted {rounds : Nat}
    (h : program.render ⟨text, none⟩ rounds model = .error .exhausted) :
    rounds ≤ (program.outcome ⟨text, none⟩ rounds model).2 := by
  have hs := (Block.run_congr (capped_congruence 0 rounds) text program.body).spends (program.start model)
  unfold Program.render at h
  unfold Program.outcome
  cases hr : program.body.run ⟨text, none⟩ rounds (program.start model) with
  | ok _ m => simp [hr] at h
  | error halt m =>
    rw [hr] at hs
    simp only [hr, Except.error.injEq] at h
    simpa [endState, Program.start] using hs.2 h

theorem Program.Ends.within {result : Except Halt String} {k : Nat}
    (h : program.Ends ⟨text, none⟩ model result k) (hk : k ≤ limit.toNat) :
    program.Ends ⟨text, some limit⟩ model result k := by
  obtain ⟨hr, n, hn⟩ := h
  refine ⟨hr, n, fun rounds hle => ?_⟩
  have hfree := hn rounds hle
  rcases program.outcome_limited model text limit rounds with ⟨-, heq⟩ | ⟨hlt, -⟩
  · exact heq.trans hfree
  · rw [hfree] at hlt
    exact absurd hk (Nat.not_le_of_lt hlt)

theorem Program.Ends.beyond {result : Except Halt String} {k : Nat}
    (h : program.Ends ⟨text, none⟩ model result k) (hk : limit.toNat < k) :
    program.Ends ⟨text, some limit⟩ model (.error (.fault (.iterationLimit limit))) (limit.toNat + 1) := by
  obtain ⟨-, n, hn⟩ := h
  refine ⟨by simp, n, fun rounds hle => ?_⟩
  have hfree := hn rounds hle
  rcases program.outcome_limited model text limit rounds with ⟨hle', -⟩ | ⟨-, heq⟩
  · rw [hfree] at hle'
    exact absurd hle' (Nat.not_le_of_lt hk)
  · exact heq

/-- Without an end every loop's rounds are used up in the end, so there are more ticks than the limit allows. -/
theorem Program.limited_of_not_ends (h : ¬∃ result k, program.Ends ⟨text, none⟩ model result k) :
    program.Ends ⟨text, some limit⟩ model (.error (.fault (.iterationLimit limit))) (limit.toNat + 1) := by
  refine ⟨by simp, limit.toNat + 1, fun rounds hle => ?_⟩
  have hspent := Program.rounds_le_of_exhausted (Program.exhausted_of_not_ends h rounds)
  rcases program.outcome_limited model text limit rounds with ⟨hle', -⟩ | ⟨-, heq⟩
  · omega
  · exact heq

theorem Program.Ends.unlimited {result : Except Halt String} {k : Nat}
    (h : program.Ends ⟨text, some limit⟩ model result k) (hr : result ≠ .error (.fault (.iterationLimit limit))) :
    program.Ends ⟨text, none⟩ model result k ∧ k ≤ limit.toNat := by
  obtain ⟨he, n, hn⟩ := h
  have free : ∀ rounds, n ≤ rounds →
      program.outcome ⟨text, none⟩ rounds model = (result, k) ∧ k ≤ limit.toNat := by
    intro rounds hle
    have hlimited := hn rounds hle
    rcases program.outcome_limited model text limit rounds with ⟨hle', heq⟩ | ⟨-, heq⟩
    · have hfree := heq.symm.trans hlimited
      rw [hfree] at hle'
      exact ⟨hfree, hle'⟩
    · rw [hlimited, Prod.mk.injEq] at heq
      exact (hr heq.1).elim
  exact ⟨⟨he, n, fun rounds hle => (free rounds hle).1⟩, (free n (Nat.le_refl n)).2⟩

/--
A limit changes nothing as long as a render stays within it: a render that ends after `k` rounds in all
ends as it does without a limit if `k` is at most the limit, and else with the fault of the limit, as
does a render that has no end. So a higher limit changes no result but that fault.
-/
theorem iterationLimit_transparent (program : Program) (model : Value) (text : String) (limit : UInt64) :
    (∀ result k, program.Ends ⟨text, none⟩ model result k → k ≤ limit.toNat →
        program.Ends ⟨text, some limit⟩ model result k) ∧
      (∀ result k, program.Ends ⟨text, none⟩ model result k → limit.toNat < k →
        program.Ends ⟨text, some limit⟩ model (.error (.fault (.iterationLimit limit))) (limit.toNat + 1)) ∧
      ((¬∃ result k, program.Ends ⟨text, none⟩ model result k) →
        program.Ends ⟨text, some limit⟩ model (.error (.fault (.iterationLimit limit))) (limit.toNat + 1)) ∧
      ∀ result k, program.Ends ⟨text, some limit⟩ model result k →
        result ≠ .error (.fault (.iterationLimit limit)) →
        program.Ends ⟨text, none⟩ model result k ∧
          ∀ higher, limit ≤ higher → program.Ends ⟨text, some higher⟩ model result k := by
  refine ⟨fun _ _ h hk => h.within hk, fun _ _ h hk => h.beyond hk, Program.limited_of_not_ends, ?_⟩
  intro result k h hr
  obtain ⟨hfree, hk⟩ := h.unlimited hr
  refine ⟨hfree, fun higher hle => hfree.within (Nat.le_trans hk ?_)⟩
  exact UInt64.le_iff_toNat_le.1 hle

end Program

/-- Writes `a` for each of two items. -/
def twice : Program := ⟨.mk [] [.each ⟨0, "x"⟩ (.const (.array [.null, .null])) (.mk [] [.write "a"])], 1⟩

/-- Goes on and on. -/
def forever : Program := ⟨.mk [] [.loop [] (.write "") (.const (.bool true)) (.write "") (.mk [] [])], 0⟩

theorem loop_exhausted {test : Exec Bool} {round : Exec Unit} (ht : ∀ m, test m = .ok true m)
    (hr : ∀ m, ∃ m', round m = .ok () m') (rounds : Nat) (m : Machine) :
    ∃ m', Exec.loop test round rounds m = .error .exhausted m' := by
  induction rounds generalizing m with
  | zero => exact ⟨m, rfl⟩
  | succ rounds ih =>
    obtain ⟨m₁, h₁⟩ := hr m
    obtain ⟨m', h'⟩ := ih m₁
    refine ⟨m', (bind_of_ok (ht m)).trans ?_⟩
    exact (bind_of_ok h₁).trans h'

theorem forever_exhausted (rounds : Nat) :
    forever.render ⟨"", none⟩ rounds .null = .error .exhausted := by
  obtain ⟨m', hloop⟩ : ∃ m', Exec.loop (do return (← (Term.const (.bool true)).run).isTruthy)
      (do Exec.tick none; (Block.mk [] []).run ⟨"", none⟩ rounds; (Step.write "").run ⟨"", none⟩ rounds)
      rounds (forever.start .null) = .error .exhausted m' :=
    loop_exhausted (fun _ => rfl) (fun _ => ⟨_, rfl⟩) rounds _
  have hstep : (Step.loop [] (.write "") (.const (.bool true)) (.write "") (.mk [] [])).run ⟨"", none⟩ rounds
      (forever.start .null) = .error .exhausted m' := hloop
  have hrun : forever.body.run ⟨"", none⟩ rounds (forever.start .null) = .error .exhausted m' :=
    (bind_of_ok rfl).trans (bind_of_error hstep)
  simp only [Program.render, hrun]

/-- Two rounds are within limits of two and three and beyond a limit of one, which also stops an endless run. -/
theorem iterationLimit_transparent_twice :
    (twice.Ends ⟨"", none⟩ .null (.ok "aa") 2 ∧ twice.Ends ⟨"", some 2⟩ .null (.ok "aa") 2 ∧
      twice.Ends ⟨"", some 3⟩ .null (.ok "aa") 2 ∧ twice.Ends ⟨"", some 1⟩ .null (.error (.fault (.iterationLimit 1))) 2) ∧
      (¬∃ result k, forever.Ends ⟨"", none⟩ .null result k) ∧
      forever.Ends ⟨"", some 1⟩ .null (.error (.fault (.iterationLimit 1))) 2 := by
  have ends : twice.Ends ⟨"", none⟩ .null (.ok "aa") 2 := by
    have outcome : twice.outcome ⟨"", none⟩ 0 .null = (.ok "aa", 2) := by cbv
    exact Program.ends_of_outcome outcome (by simp)
  have endless : ¬∃ result k, forever.Ends ⟨"", none⟩ .null result k := by
    rintro ⟨result, k, hr, n, hn⟩
    have houtcome := hn n (Nat.le_refl n)
    rw [Program.outcome, forever_exhausted, Prod.mk.injEq] at houtcome
    exact hr houtcome.1.symm
  obtain ⟨within, -, -, raised⟩ := iterationLimit_transparent twice .null "" 2
  obtain ⟨-, beyond, -, -⟩ := iterationLimit_transparent twice .null "" 1
  obtain ⟨-, -, stopped, -⟩ := iterationLimit_transparent forever .null "" 1
  have limited := within _ _ ends (by decide)
  obtain ⟨-, higher⟩ := raised _ _ limited (by simp)
  exact ⟨⟨ends, limited, higher 3 (by decide), beyond _ _ ends (by decide)⟩, endless, stopped endless⟩

end Stencil
