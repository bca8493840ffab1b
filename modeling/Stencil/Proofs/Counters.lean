import Mathlib
import Stencil.Proofs.Acceptance
import Stencil.Proofs.Faithful
import Stencil.Proofs.Renaming
/-!
# Counters

Adding one to a counter by `++i` and by `i = i + 1` are two implementations of one step: they agree on every
number (`UpdateOp.apply?_number`), also where the counter leaves the integers. In a loop that starts its counter
at an integer and does not touch it otherwise the counter stays a number, so that either form of the increment
gives the same run (`counted_loop_run`). What a template does not touch is said by name (`Part.Spares`), and of
compiled steps by slot (`Compiled.spares`). So the loops of a template may be recounted wherever they stand
(`Recounted.runsAs`, `recounted_renders`).
-/

namespace Stencil

/-! ## One more, one less -/

/-- The arithmetic that an update does. -/
def UpdateOp.arithmetic : UpdateOp → ArithmeticOp
  | .increment => .add
  | .decrement => .subtract

def Value.IsNumber (v : Value) : Prop := v.number?.isSome

theorem Binary64.ofQuotient_neg (negative : Bool) (num den : Nat) :
    (ofQuotient negative num den).neg = ofQuotient (!negative) num den := by
  unfold ofQuotient
  split <;> rfl

theorem Binary64.ofInt_neg {n : Int} (h : 0 < n) : (ofInt n).neg = ofInt (-n) := by
  have hsign : (!decide (n < 0)) = decide (-n < 0) := by simp [h, h.le]
  rw [ofInt, ofInt, ofQuotient_neg, hsign, Int.natAbs_neg]

/-- Adding `-1` and subtracting `1` are one operation. -/
theorem UpdateOp.real_one (op : UpdateOp) (x : Binary64) :
    op.arithmetic.real x (.ofInt64 1) = x.add (.ofInt op.delta) := by
  cases op with
  | increment => rfl
  | decrement =>
    have hone : (Binary64.ofInt64 1).neg = .ofInt (-1) := Binary64.ofInt_neg (n := 1) Int.one_pos
    exact congrArg x.add hone

theorem UpdateOp.integer?_one (op : UpdateOp) (n : Int64) :
    op.arithmetic.integer? n 1 = int64? (n.toInt + op.delta) := by
  cases op <;> rfl

/-- On numbers an update is arithmetic with one, and its result is a number. -/
theorem UpdateOp.apply?_number (op : UpdateOp) {v : Value} (hv : v.IsNumber) :
    ∃ w, w.IsNumber ∧ op.apply? v = some w ∧ op.arithmetic.apply v (.integer 1) = .ok w := by
  have hjoined : ¬(op.arithmetic = .add ∧ (v.isJoined || (Value.integer 1).isJoined)) := by
    cases v <;> simp_all [Value.IsNumber, Value.number?, Value.isJoined]
  rw [ArithmeticOp.apply, if_neg hjoined]
  cases v with
  | integer n =>
    simp only [ArithmeticOp.compute?, UpdateOp.integer?_one, UpdateOp.apply?]
    cases int64? (n.toInt + op.delta) with
    | some m => exact ⟨.integer m, rfl, rfl, rfl⟩
    | none =>
      refine ⟨.real ((Binary64.ofInt64 n).add (.ofInt op.delta)), rfl, rfl, ?_⟩
      simp [ArithmeticOp.coerced?, Value.toNumber?, UpdateOp.real_one]
  | real x =>
    refine ⟨.real (x.add (.ofInt op.delta)), rfl, rfl, ?_⟩
    simp [ArithmeticOp.compute?, ArithmeticOp.coerced?, Value.toNumber?, UpdateOp.real_one]
  | _ => cases hv

/-! ## Slots that a run leaves alone -/

/-- The term does not update the slot. -/
def Term.Spares (s : Nat) (e : Term) : Prop := e.Every (fun _ => True) (·.slot ≠ s)

/-- The place is not inside the slot. -/
def Place.Spares (s : Nat) (place : Place) : Prop := ∀ x, place.root = .variable x → x.slot ≠ s

/-- No step of the block changes the slot. -/
def Block.Spares (s : Nat) (b : Block) : Prop := b.Every (Term.Spares s) (· ≠ s) (Place.Spares s)

theorem spared_kept (s : Nat) (w : Option Value) (limit : Option UInt64) :
    Kept (fun m => m.slots[s]? = w) (fun _ => True) limit (Term.Spares s) (· ≠ s) (Place.Spares s) :=
  { untouched_kept s w limit with
    term := fun e he => Exec.eval_keeps fun _ _ => Term.eval_keeps (fun _ => trivial)
      (fun x _ => Eval.get_untouched x.slot s w) (fun _ v hx => Eval.set_untouched hx w v) e he
    set := fun _ v hs => Exec.eval_keeps fun _ _ => Eval.set_untouched hs w v
    store := fun _ v hp => Exec.store_keeps (fun _ => trivial)
      (fun x _ => Exec.eval_keeps fun _ _ => Eval.get_untouched x.slot s w)
      (fun x v hx => Exec.eval_keeps fun _ _ => Eval.set_untouched (hp x hx) w v) (fun _ _ _ _ hm => hm) v }

/-- The slot holds a number. -/
def Machine.Counts (s : Nat) (m : Machine) : Prop := ∃ v, m.slots[s]? = some v ∧ v.IsNumber

/-- What leaves the slot as it is leaves a number in it. -/
theorem Keeps.counts {α : Type} {s : Nat} {x : Exec α}
    (h : ∀ w, Keeps (fun m : Machine => m.slots[s]? = w) (fun _ => True) x) :
    Keeps (Machine.Counts s) (fun _ => True) x := by
  rintro m ⟨v, hm, hv⟩
  have hkept := h (some v) m hm
  cases hx : x m with
  | ok a m' =>
    rw [hx] at hkept
    exact ⟨v, hkept, hv⟩
  | error halt m' =>
    rw [hx] at hkept
    exact ⟨⟨v, hkept.1, hv⟩, trivial⟩

/-! ## Loops that count -/

/-- Loops with rounds that do the same where the invariant holds are the same from there. -/
theorem Exec.loop_congr {I : Machine → Prop} {E : Halt → Prop} {test : Exec Bool} {round round' : Exec Unit}
    (ht : Keeps I E test) (hr : Keeps I E round) (h : ∀ m, I m → round' m = round m) (rounds : Nat) :
    ∀ m, I m → Exec.loop test round' rounds m = Exec.loop test round rounds m := by
  induction rounds with
  | zero => exact fun _ _ => rfl
  | succ rounds ih =>
    intro m hm
    have htest := ht m hm
    unfold Exec.loop
    cases hb : test m with
    | error halt m' => rw [bind_of_error hb, bind_of_error hb]
    | ok b m' =>
      rw [hb] at htest
      rw [bind_of_ok hb, bind_of_ok hb]
      cases b with
      | false => rfl
      | true =>
        have hround := hr m' htest
        simp only [if_true]
        cases hx : round m' with
        | error halt m'' => rw [bind_of_error hx, bind_of_error ((h m' htest).trans hx)]
        | ok u m'' =>
          rw [hx] at hround
          rw [bind_of_ok hx, bind_of_ok ((h m' htest).trans hx)]
          exact ih m'' hround

/-- Counting by an assignment to the counter. -/
def UpdateOp.assigning (op : UpdateOp) (y : Local) : Step :=
  .assign y (.binary (.arithmetic op.arithmetic) (.variable y) (.const (.integer 1)))

theorem Term.run_ok {e : Term} {m : Machine} {v : Value} {slots : Slots} (h : e.eval m.model m.slots = .ok v slots) :
    e.run m = .ok v { m with slots } := by
  rw [Term.run, Exec.eval, h]

/-- A counter that starts at an integer starts as a number. -/
theorem declare_counts (options : Options) (rounds : Nat) {y : Local} {n : Int64} {m m' : Machine} {u : Unit}
    (h : (Step.declare y (.const (.integer n))).run options rounds m = .ok u m') : m'.Counts y.slot := by
  have hconst : (Term.const (.integer n)).run m = .ok (.integer n) m := by
    rw [Term.run, Exec.eval, Term.eval]
    rfl
  rw [Step.run, bind_of_ok hconst] at h
  by_cases hlt : y.slot < m.slots.size
  · rw [eval_set_ok hlt] at h
    cases h
    exact ⟨.integer n, by simp [hlt], rfl⟩
  · simp [Exec.eval, Eval.set, hlt] at h

/-- Where the counter is a number, either form of the increment makes it the same number. -/
theorem update_counts (options : Options) (rounds : Nat) (op : UpdateOp) {y : Local} {m : Machine}
    (hm : m.Counts y.slot) :
    ∃ m', m'.Counts y.slot ∧ (Step.eval (.update op y)).run options rounds m = .ok () m' ∧
      (op.assigning y).run options rounds m = .ok () m' := by
  obtain ⟨v, hv, hn⟩ := hm
  obtain ⟨w, hw, hupdate, harithmetic⟩ := op.apply?_number hn
  have hlt : y.slot < m.slots.size := (Array.getElem?_eq_some_iff.1 hv).1
  have hget : Eval.get y.slot m.slots = .ok v m.slots := by rw [Eval.get, hv]
  have hset : Eval.set y.slot w m.slots = .ok () (m.slots.setIfInBounds y.slot w) := by rw [Eval.set, if_pos hlt]
  refine ⟨{ m with slots := m.slots.setIfInBounds y.slot w }, ⟨w, by simp [hlt], hw⟩, ?_, ?_⟩
  · have heval : (Term.update op y).eval m.model m.slots = .ok w (m.slots.setIfInBounds y.slot w) := by
      rw [Term.eval, bind_of_ok hget, hupdate]
      exact bind_of_ok hset
    rw [Step.run, discard_eq_bind]
    exact bind_of_ok (Term.run_ok heval)
  · have hread : (Term.variable y).eval m.model m.slots = .ok v m.slots := by rwa [Term.eval]
    have heval : (Term.binary (.arithmetic op.arithmetic) (.variable y) (.const (.integer 1))).eval m.model m.slots =
        .ok w m.slots := by
      rw [Term.eval, bind_of_ok hread, Term.eval]
      exact congrFun (congrArg Eval.ofExcept harithmetic) m.slots
    rw [UpdateOp.assigning, Step.run, bind_of_ok (Term.run_ok heval)]
    exact eval_set_ok hlt w

theorem bind_congr_of_ok {ε σ α β : Type} {x : EStateM ε σ α} {f g : α → EStateM ε σ β} {s : σ}
    (h : ∀ a s', x s = .ok a s' → f a s' = g a s') : (x >>= f) s = (x >>= g) s := by
  cases hx : x s with
  | ok a s' => rw [bind_of_ok hx, bind_of_ok hx, h a s' hx]
  | error e s' => rw [bind_of_error hx, bind_of_error hx]

/-- A loop that counts from an integer and does not touch its counter otherwise may count either way. -/
theorem counted_loop_run {options : Options} {rounds : Nat} {locals : List Nat} {y : Local} {n : Int64} {c : Term}
    {b b' : Block} (op : UpdateOp) (hc : c.Spares y.slot) (hb : b.Spares y.slot)
    (hrun : b'.run options rounds = b.run options rounds) :
    (Step.loop locals (.declare y (.const (.integer n))) c (op.assigning y) b').run options rounds =
      (Step.loop locals (.declare y (.const (.integer n))) c (.eval (.update op y)) b).run options rounds := by
  have kept (w : Option Value) := spared_kept y.slot w options.iterationLimit
  have htest : Keeps (Machine.Counts y.slot) (fun _ => True) (do return (← c.run).isTruthy : Exec Bool) :=
    .bind (.counts fun w => (kept w).term c hc) fun _ => .pure _
  have htick : Keeps (Machine.Counts y.slot) (fun _ => True) (Exec.tick options.iterationLimit) :=
    .counts fun w => (kept w).tick
  have hbody : Keeps (Machine.Counts y.slot) (fun _ => True) (b.run options rounds) :=
    .counts fun w => Block.run_keeps (kept w) rounds b hb
  have hupdate : Keeps (Machine.Counts y.slot) (fun _ => True) ((Step.eval (.update op y)).run options rounds) := by
    intro m hm
    obtain ⟨m', hm', heq, -⟩ := update_counts options rounds op hm
    rw [heq]
    exact hm'
  -- a machine with a number in the slot of the counter has one there when the increment is reached
  have hround : ∀ m, Machine.Counts y.slot m →
      (do Exec.tick options.iterationLimit; b'.run options rounds; (op.assigning y).run options rounds) m =
      (do Exec.tick options.iterationLimit; b.run options rounds; (Step.eval (.update op y)).run options rounds) m := by
    intro m hm
    refine bind_congr_of_ok fun _ m₁ h₁ => ?_
    rw [hrun]
    refine bind_congr_of_ok fun _ m₂ h₂ => ?_
    have hm₁ := htick m hm
    rw [h₁] at hm₁
    have hm₂ := hbody m₁ hm₁
    rw [h₂] at hm₂
    obtain ⟨m', -, hleft, hright⟩ := update_counts options rounds op hm₂
    rw [hleft, hright]
  funext m
  rw [Step.run, Step.run]
  refine bind_congr_of_ok fun _ m₁ _ => bind_congr_of_ok fun _ m₂ h₂ => ?_
  refine Exec.loop_congr htest (.bind htick fun _ => .bind hbody fun _ => hupdate) hround rounds m₂ ?_
  exact declare_counts options rounds h₂

/-! ## Names that a template leaves alone -/

mutual

/-- No variable that goes by one of the names is updated. -/
def Expr.Spares (names : String → Prop) : Expr → Prop
  | .literal _ | .name _ => True
  | .member target _ => target.Spares names
  | .index target position => target.Spares names ∧ position.Spares names
  | .call target _ args => target.Spares names ∧ Expr.SparesArgs names args
  | .unary operator operand =>
    (operatorSymbol operator ∈ ["++", "--"] → ∀ x, operand = .name x → ¬names x) ∧ operand.Spares names
  | .binary _ left right => left.Spares names ∧ right.Spares names
  | .conditional condition ifTrue ifFalse =>
    condition.Spares names ∧ ifTrue.Spares names ∧ ifFalse.Spares names

def Expr.SparesArgs (names : String → Prop) : List Expr → Prop
  | [] => True
  | e :: rest => e.Spares names ∧ Expr.SparesArgs names rest

end

/-- Those of the names that a new variable `x` does not shadow. -/
def unshadowed (names : String → Prop) (x : String) : String → Prop := fun y => names y ∧ y ≠ x

/-- Those of the names that a loop with this initial statement does not shadow. -/
def Statement.unshadowed (names : String → Prop) : Statement → String → Prop
  | .assign (.name x) _ => Stencil.unshadowed names x
  | _ => names

mutual

/--
No variable that goes by one of the names is assigned, updated or stored into. A name that a loop takes for a
variable of its own is another variable inside.
-/
def Statement.Spares (names : String → Prop) (fresh : Bool) : Statement → Prop
  | .assign (.name x) value => (fresh = true ∨ ¬names x) ∧ value.Spares names
  | .assign (.member parent x) value =>
    (∀ root path, (Expr.member parent x).chain = .ok (root, path) → ¬names root) ∧ value.Spares names
  | .when condition body => condition.Spares names ∧ Segment.SparesAll names body
  | .choose condition body otherwise =>
    condition.Spares names ∧ Segment.SparesAll names body ∧ Segment.SparesAll names otherwise
  | .loop initial condition increment body =>
    initial.Spares names true ∧ condition.Spares (initial.unshadowed names) ∧
      increment.Spares (initial.unshadowed names) ∧ Segment.SparesAll (initial.unshadowed names) body
  | .each x collection body => collection.Spares names ∧ Segment.SparesAll (unshadowed names x) body
  | .switch subject body => subject.Spares names ∧ Segment.SparesAll names body
  | .label _ guard => ∀ e ∈ guard, e.Spares names

def Segment.Spares (names : String → Prop) : Segment → Prop
  | .text _ => True
  | .expr e => e.Spares names
  | .statement s => s.Spares names false
  | .block body => Segment.SparesAll names body
  | .element _ attributes _ selfClosing children =>
    Attribute.SparesAll names attributes ∧ (selfClosing = true ∨ Segment.SparesAll names children)

def Segment.SparesAll (names : String → Prop) : List Segment → Prop
  | [] => True
  | s :: rest => s.Spares names ∧ Segment.SparesAll names rest

def Attribute.Spares (names : String → Prop) : Attribute → Prop
  | .flag _ => True
  | .valued _ value => Segment.SparesAll names value

def Attribute.SparesAll (names : String → Prop) : List Attribute → Prop
  | [] => True
  | a :: rest => a.Spares names ∧ Attribute.SparesAll names rest

end

def Part.Spares (names : String → Prop) : Part → Prop
  | .statement fresh s => s.Spares names fresh
  | .increment s | .segment s => s.Spares names
  | .body l | .segments l => Segment.SparesAll names l
  | .attribute a => a.Spares names
  | .attributes l => Attribute.SparesAll names l

/-! ## What is spared by name is spared by slot -/

/-- The slot is in use, and variables in it go by the names only. -/
structure Scope.KnownAs (scope : Scope) (s : Nat) (names : String → Prop) : Prop where
  used : s < scope.count
  names : ∀ x y, scope.resolve? x = some y → y.slot = s → names x

section KnownAs
variable {scope scope' : Scope} {s : Nat} {names : String → Prop} {part : Part} {steps : List Step}

theorem Scope.KnownAs.push (h : scope.KnownAs s names) : scope.push.KnownAs s names := ⟨h.used, h.names⟩

/-- What is declared later goes into other slots. -/
theorem Scope.KnownAs.declare (h : scope.KnownAs s names) (x : String) :
    (scope.declare x).2.KnownAs s (unshadowed names x) where
  used := by
    rw [declare_count]
    exact Nat.lt_succ_of_lt h.used
  names y z hz hs := by
    rw [resolve?_eq_innermost?, declare_binders, innermost?, List.find?_cons] at hz
    have hused := h.used
    split at hz
    · obtain rfl := Option.some.inj hz
      exact absurd hs (by simp; omega)
    · next hne =>
      refine ⟨h.names y z (by rwa [resolve?_eq_innermost?]) hs, ?_⟩
      rintro rfl
      simp at hne

/-- A part of a template names nothing else by the names of a slot. -/
theorem Scope.KnownAs.compiled (h : scope.KnownAs s names) (hc : Compiled scope part steps scope')
    (ho : scope.Open) : scope'.KnownAs s names where
  used := Nat.lt_of_lt_of_le h.used hc.introduced.le
  names x y hy hs := by
    obtain ⟨frame, outer, hf⟩ := List.ne_nil_iff_exists_cons.1 ho.inside
    rw [resolve?_eq_innermost?, hc.binders hf, innermost?, List.find?_append, Option.or_eq_some_iff] at hy
    rcases hy with hnew | ⟨-, hold⟩
    · have hdeclared : y ∈ Step.declaredAll steps := List.mem_reverse.1 (List.mem_of_find?_eq_some hnew)
      have hle := (hc.introduced.mem.1 (Step.declaredAll_introduced hdeclared)).1
      have hused := h.used
      omega
    · exact h.names x y (by rwa [resolve?_eq_innermost?]) hs

/-- Inside a loop the names mean the same, but for the variable that the loop starts with. -/
theorem Scope.KnownAs.initial {initial : Statement} (h : scope.KnownAs s names)
    (hc : Compiled scope.push (.statement true initial) steps scope') (ho : scope.Open) :
    scope'.KnownAs s (initial.unshadowed names) := by
  unfold Statement.unshadowed
  split
  · cases hc with
    | declare => exact h.push.declare _
  · exact h.push.compiled hc ho.push

mutual

theorem Expr.compile_spares (hk : scope.KnownAs s names) : ∀ e : Expr, e.Spares names → ∀ t,
    (e.compile scope).result = .ok t → t.Spares s
  | .literal _, _ => by
    intro _ ht
    obtain ⟨v, -, rfl⟩ := literal_compile_ok.1 ht
    trivial
  | .name x, _ => by
    intro _ ht
    obtain ⟨-, rfl⟩ := name_compile_ok.1 ht
    unfold Scope.term
    cases scope.resolve? x <;> trivial
  | .member target _, h => by
    intro _ ht
    obtain ⟨-, e, he, rfl⟩ := member_compile_ok.1 ht
    exact Expr.compile_spares hk target h e he
  | .index target position, h => by
    intro _ ht
    obtain ⟨e, i, he, hi, rfl⟩ := index_compile_ok.1 ht
    exact ⟨Expr.compile_spares hk target h.1 e he, Expr.compile_spares hk position h.2 i hi⟩
  | .call target _ args, h => by
    intro _ ht
    obtain ⟨-, e, es, he, hes, rfl⟩ := call_compile_ok.1 ht
    exact ⟨Expr.compile_spares hk target h.1 e he, Expr.compileArgs_spares hk args h.2 es hes⟩
  | .unary _ operand, h => by
    intro _ ht
    rcases unary_compile_ok.1 ht with ⟨op, e, -, he, rfl⟩ | ⟨op, x, y, hop, hx, -, hy, rfl⟩
    · exact Expr.compile_spares hk operand h.2 e he
    · have hsymbol := PrefixOp.ofSymbol?_eq_some.1 hop
      refine ⟨trivial, fun hs => h.1 ?_ x hx (hk.names x y hy hs)⟩
      cases op <;> simp [hsymbol, PrefixOp.symbol, UpdateOp.symbol]
  | .binary _ left right, h => by
    intro _ ht
    obtain ⟨op, l, r, -, hl, hr, rfl⟩ := binary_compile_ok.1 ht
    exact ⟨Expr.compile_spares hk left h.1 l hl, Expr.compile_spares hk right h.2 r hr⟩
  | .conditional condition ifTrue ifFalse, h => by
    intro _ ht
    obtain ⟨c, a, b, hc, ha, hb, rfl⟩ := conditional_compile_ok.1 ht
    exact ⟨Expr.compile_spares hk condition h.1 c hc, Expr.compile_spares hk ifTrue h.2.1 a ha,
      Expr.compile_spares hk ifFalse h.2.2 b hb⟩

theorem Expr.compileArgs_spares (hk : scope.KnownAs s names) : ∀ es : List Expr, Expr.SparesArgs names es → ∀ ts,
    (Expr.compileArgs scope es).result = .ok ts → Term.EveryArg (fun _ => True) (·.slot ≠ s) ts
  | [], _ => by
    intro _ ht
    cases ht
    trivial
  | e :: rest, h => by
    intro _ ht
    obtain ⟨t, more, he, hm, rfl⟩ := compileArgs_cons_ok.1 ht
    exact ⟨Expr.compile_spares hk e h.1 t he, Expr.compileArgs_spares hk rest h.2 more hm⟩

end

/-- The inner scope is the outer one with one more frame, of new variables. -/
structure Scope.Within (outer inner : Scope) : Prop where
  frames : ∃ frame, inner.frames = frame :: outer.frames ∧ ∀ x ∈ frame, outer.count ≤ x.slot
  count : outer.count ≤ inner.count

theorem Scope.Within.push (scope : Scope) : scope.Within scope.push := ⟨⟨[], rfl, by simp⟩, le_rfl⟩

theorem Scope.Within.compiled {outer : Scope} (h : outer.Within scope) (hc : Compiled scope part steps scope') :
    outer.Within scope' := by
  obtain ⟨frame, hf, hnew⟩ := h.frames
  refine ⟨⟨_, hc.frames hf, fun x hx => ?_⟩, h.count.trans hc.introduced.le⟩
  rcases List.mem_append.1 hx with hx | hx
  · have hdeclared := Step.declaredAll_introduced (List.mem_reverse.1 hx)
    exact h.count.trans (hc.introduced.mem.1 hdeclared).1
  · exact hnew x hx

theorem Scope.Within.pop {outer : Scope} (h : outer.Within scope) : ∀ slot ∈ scope.pop.1, outer.count ≤ slot := by
  obtain ⟨frame, hf, hnew⟩ := h.frames
  intro slot hslot
  rw [(pop_of_frames hf).1, List.mem_reverse, List.mem_map] at hslot
  obtain ⟨x, hx, rfl⟩ := hslot
  exact hnew x hx

/-- A part that spares the names of a slot compiles to steps that spare the slot. -/
theorem Compiled.spares (hc : Compiled scope part steps scope') (hp : part.Spares names)
    (hk : scope.KnownAs s names) (ho : scope.Open) :
    Step.EveryAll (Term.Spares s) (· ≠ s) (Place.Spares s) steps := by
  induction hc generalizing names with
  | store he hplace =>
    obtain ⟨root, path, hchain, -, rfl⟩ := compilePlace_ok.1 hplace
    refine ⟨⟨fun y hy hs => hp.1 root path hchain ?_, Expr.compile_spares hk _ hp.2 _ he⟩, trivial⟩
    simp only [Scope.root] at hy
    split at hy
    · next hroot =>
      cases hy
      exact hk.names root y hroot hs
    · cases hy
  | declare he _ _ => exact ⟨⟨hk.used.ne', Expr.compile_spares hk _ hp.2 _ he⟩, trivial⟩
  | assign he _ hy =>
    have hx := hp.1.resolve_left (by decide)
    exact ⟨⟨fun hs => hx (hk.names _ _ hy hs), Expr.compile_spares hk _ hp.2 _ he⟩, trivial⟩
  | when hc _ ih | switch hc _ ih => exact ⟨⟨Expr.compile_spares hk _ hp.1 _ hc, (ih hp.2 hk ho).1⟩, trivial⟩
  | choose hc hb _ ihb iho =>
    exact ⟨⟨Expr.compile_spares hk _ hp.1 _ hc, (ihb hp.2.1 hk ho).1,
      (iho hp.2.2 (hk.compiled hb ho) (hb.keepsOpen ho)).1⟩, trivial⟩
  | loop hi hc hu hb ihi ihu ihb =>
    have hinside := hk.initial hi ho
    have hopen := hi.keepsOpen ho.push
    have hlocals := (((Scope.Within.push _).compiled hi).compiled hu).compiled hb |>.pop
    exact ⟨⟨fun slot hslot => (hk.used.trans_le (hlocals slot hslot)).ne', (ihi hp.1 hk.push ho.push).1,
      Expr.compile_spares hinside _ hp.2.1 _ hc, (ihu hp.2.2.1 hinside hopen).1,
      (ihb hp.2.2.2 (hinside.compiled hu hopen) (hu.keepsOpen hopen)).1⟩, trivial⟩
  | each _ hc _ ih =>
    exact ⟨⟨hk.used.ne', Expr.compile_spares hk _ hp.1 _ hc, (ih hp.2 (hk.push.declare _) (ho.push.declare _)).1⟩, trivial⟩
  | label => exact ⟨trivial, trivial⟩
  | guarded _ he => exact ⟨Expr.compile_spares hk _ (hp _ rfl) _ he, trivial⟩
  | evaluate ht | emit ht => exact ⟨Expr.compile_spares hk _ hp _ ht, trivial⟩
  | update _ ih | statement _ ih | block _ ih => exact ih hp hk ho
  | body hs ih =>
    have hlocals := (Scope.Within.push _).compiled hs |>.pop
    refine ⟨⟨fun slot hslot => (hk.used.trans_le (hlocals slot hslot)).ne', ?_⟩, trivial⟩
    rw [everyAll_joinWrites]
    exact ih hp hk.push ho.push
  | text | nil | flag | noAttributes => simp [Step.EveryAll, Step.Every]
  | closed _ _ _ ih => simpa [Step.EveryAll, Step.Every, everyAll_append] using ih hp.1 hk ho
  | element _ _ ht _ iht ihc =>
    have hchildren := hp.2.resolve_left (by decide)
    simpa [Step.EveryAll, Step.Every, everyAll_append] using
      ⟨iht hp.1 hk ho, ihc hchildren (hk.compiled ht ho) (ht.keepsOpen ho)⟩
  | cons hs _ ihs ihr | moreAttributes hs _ ihs ihr =>
    rw [everyAll_append]
    exact ⟨ihs hp.1 hk ho, ihr hp.2 (hk.compiled hs ho) (hs.keepsOpen ho)⟩
  | valued _ _ ih => simpa [Step.EveryAll, Step.Every, everyAll_append] using ih hp hk ho

/-- A new variable is known by its own name. -/
theorem Scope.Open.knownAs (ho : scope.Open) (x : String) : (scope.declare x).2.KnownAs scope.count (· = x) where
  used := by
    rw [declare_count]
    exact Nat.lt_succ_self _
  names y z hz hs := by
    rw [resolve?_eq_innermost?, declare_binders, innermost?, List.find?_cons] at hz
    split at hz
    · next heq => exact (beq_iff_eq.1 heq).symm
    · have hbelow := ho.sound.below z (List.mem_of_find?_eq_some hz)
      omega

theorem resolve?_declare (scope : Scope) (x : String) :
    (scope.declare x).2.resolve? x = some ⟨scope.count, x⟩ := by
  simp [resolve?_eq_innermost?, declare_binders, innermost?]

end KnownAs

/-! ## Loops that count in another way -/

/--
The second part is the first with some of its loops counting by assignment: `i = i + 1` for `++i` and `i = i - 1`
for `--i`, where `i` starts at an integer and neither the condition nor the body touches it.
-/
inductive Recounted : Part → Part → Prop
  | same {part} : Recounted part part
  | counter {fresh i token n operator condition body body'} (op : UpdateOp) :
      Literal.decode token = .ok (.integer n) →
      PrefixOp.ofSymbol? (operatorSymbol operator) = some (.update op) →
      condition.Spares (· = i) → Segment.SparesAll (· = i) body → Recounted (.body body) (.body body') →
      Recounted
        (.statement fresh (.loop (.assign (.name i) (.literal token)) condition
          (.expr (.unary operator (.name i))) body))
        (.statement fresh (.loop (.assign (.name i) (.literal token)) condition
          (.statement (.assign (.name i) (.binary op.arithmetic.symbol (.name i) (.literal "1")))) body'))
  | when {fresh condition body body'} : Recounted (.body body) (.body body') →
      Recounted (.statement fresh (.when condition body)) (.statement fresh (.when condition body'))
  | choose {fresh condition body body' otherwise otherwise'} : Recounted (.body body) (.body body') →
      Recounted (.body otherwise) (.body otherwise') →
      Recounted (.statement fresh (.choose condition body otherwise))
        (.statement fresh (.choose condition body' otherwise'))
  | loop {fresh initial initial' condition increment increment' body body'} :
      Recounted (.statement true initial) (.statement true initial') →
      Recounted (.increment increment) (.increment increment') → Recounted (.body body) (.body body') →
      Recounted (.statement fresh (.loop initial condition increment body))
        (.statement fresh (.loop initial' condition increment' body'))
  | each {fresh x collection body body'} : Recounted (.body body) (.body body') →
      Recounted (.statement fresh (.each x collection body)) (.statement fresh (.each x collection body'))
  | switch {fresh subject body body'} : Recounted (.body body) (.body body') →
      Recounted (.statement fresh (.switch subject body)) (.statement fresh (.switch subject body'))
  | update {s s'} : Recounted (.statement false s) (.statement false s') →
      Recounted (.increment (.statement s)) (.increment (.statement s'))
  | body {l l'} : Recounted (.segments l) (.segments l') → Recounted (.body l) (.body l')
  | statement {s s'} : Recounted (.statement false s) (.statement false s') →
      Recounted (.segment (.statement s)) (.segment (.statement s'))
  | block {l l'} : Recounted (.body l) (.body l') → Recounted (.segment (.block l)) (.segment (.block l'))
  | element {name attributes attributes' space selfClosing children children'} :
      Recounted (.attributes attributes) (.attributes attributes') →
      Recounted (.segments children) (.segments children') →
      Recounted (.segment (.element name attributes space selfClosing children))
        (.segment (.element name attributes' space selfClosing children'))
  | cons {s s' rest rest'} : Recounted (.segment s) (.segment s') → Recounted (.segments rest) (.segments rest') →
      Recounted (.segments (s :: rest)) (.segments (s' :: rest'))
  | valued {name value value'} : Recounted (.segments value) (.segments value') →
      Recounted (.attribute (.valued name value)) (.attribute (.valued name value'))
  | moreAttributes {a a' rest rest'} : Recounted (.attribute a) (.attribute a') →
      Recounted (.attributes rest) (.attributes rest') → Recounted (.attributes (a :: rest)) (.attributes (a' :: rest'))

/-- Where the first part compiles the second does, in the same slots, and the steps run alike. -/
def Part.RunsAs (part part' : Part) : Prop :=
  ∀ scope scope' steps, scope.Open → Compiled scope part steps scope' →
    ∃ steps', Compiled scope part' steps' scope' ∧
      ∀ options rounds, Step.runAll options rounds steps' = Step.runAll options rounds steps

/-- Statements, increments and bodies compile to one step. -/
def Part.IsOne : Part → Prop
  | .statement .. | .increment _ | .body _ => True
  | _ => False

section RunsAs
variable {scope scope' : Scope} {part part' : Part} {l l' : List Segment} {steps : List Step} {step : Step} {b : Block}

theorem Compiled.one (hc : Compiled scope part steps scope') (hone : part.IsOne) : ∃ step, steps = [step] := by
  cases hc <;> first | exact ⟨_, rfl⟩ | cases hone

theorem Part.RunsAs.one (h : part.RunsAs part') (hone : part'.IsOne) (ho : scope.Open)
    (hc : Compiled scope part [step] scope') :
    ∃ step', Compiled scope part' [step'] scope' ∧
      ∀ options rounds, step'.run options rounds = step.run options rounds := by
  obtain ⟨steps', hc', hrun⟩ := h _ _ _ ho hc
  obtain ⟨step', rfl⟩ := hc'.one hone
  simp only [runAll_singleton] at hrun
  exact ⟨step', hc', hrun⟩

theorem Part.RunsAs.block (h : (Part.body l).RunsAs (.body l')) (ho : scope.Open)
    (hc : Compiled scope (.body l) [.block b] scope') :
    ∃ b', Compiled scope (.body l') [.block b'] scope' ∧
      ∀ options rounds, b'.run options rounds = b.run options rounds := by
  obtain ⟨step', hc', hrun⟩ := h.one trivial ho hc
  cases hc' with
  | body hs => exact ⟨_, .body hs, hrun⟩

theorem runs_of_one {step' : Step} (hc : Compiled scope part' [step'] scope')
    (hrun : ∀ options rounds, step'.run options rounds = step.run options rounds) :
    ∃ steps', Compiled scope part' steps' scope' ∧
      ∀ options rounds, Step.runAll options rounds steps' = Step.runAll options rounds [step] :=
  ⟨[step'], hc, fun options rounds => by rw [runAll_singleton, runAll_singleton, hrun]⟩

/-- A counter that is updated has the type of a number all along, so that it may be assigned instead. -/
theorem Part.RunsAs.counter {fresh : Bool} {i token operator : String} {n : Int64} {condition : Expr}
    {body body' : List Segment} (op : UpdateOp) (htoken : Literal.decode token = .ok (.integer n))
    (hop : PrefixOp.ofSymbol? (operatorSymbol operator) = some (.update op)) (hcondition : condition.Spares (· = i))
    (hbody : Segment.SparesAll (· = i) body) (h : (Part.body body).RunsAs (.body body')) :
    (Part.statement fresh (.loop (.assign (.name i) (.literal token)) condition
        (.expr (.unary operator (.name i))) body)).RunsAs
      (.statement fresh (.loop (.assign (.name i) (.literal token)) condition
        (.statement (.assign (.name i) (.binary op.arithmetic.symbol (.name i) (.literal "1")))) body')) := by
  intro scope scope' steps ho hc
  cases hc with
  | loop hi hc hu hb =>
  cases hi with
  | declare he hx hf =>
  cases hu with
  | evaluate ht =>
  obtain ⟨v, hv, rfl⟩ := literal_compile_ok.1 he
  obtain rfl : v = .integer n := by simpa [htoken] using hv.symm
  rcases unary_compile_ok.1 ht with ⟨op', -, hop', -⟩ | ⟨op', x, y, hop', hname, -, hy, rfl⟩
  · simp [hop] at hop'
  obtain rfl : op' = op := by simpa [hop] using hop'.symm
  cases hname
  obtain rfl : y = ⟨scope.push.count, i⟩ := by simpa [resolve?_declare] using hy.symm
  have hknown := ho.push.knownAs i
  have hopen := ho.push.declare i
  obtain ⟨b', hb', hrun⟩ := h.block hopen hb
  have hassign : Compiled (scope.push.declare i).2
      (.increment (.statement (.assign (.name i) (.binary op'.arithmetic.symbol (.name i) (.literal "1")))))
      [op'.assigning ⟨scope.push.count, i⟩] (scope.push.declare i).2 := by
    have hread : (scope.push.declare i).2.term i = .variable ⟨scope.push.count, i⟩ := by rw [Scope.term, hy]
    have hsymbol : BinaryOp.ofSymbol? (operatorSymbol op'.arithmetic.symbol) = some (.arithmetic op'.arithmetic) := by
      cases op' <;> decide
    exact .update (.assign (binary_compile_ok.2 ⟨_, _, _, hsymbol, name_compile_ok.2 ⟨hx, hread⟩,
      literal_compile_ok.2 ⟨.integer 1, rfl, rfl⟩, rfl⟩) hx hy)
  refine runs_of_one (.loop (.declare he hx hf) hc hassign hb') fun options rounds => ?_
  exact counted_loop_run op' (Expr.compile_spares hknown condition hcondition _ hc)
    (hb.spares hbody hknown hopen).1 (hrun options rounds)

theorem Recounted.runsAs (h : Recounted part part') : part.RunsAs part' := by
  induction h with
  | same => exact fun _ _ _ _ hc => ⟨_, hc, fun _ _ => rfl⟩
  | counter op htoken hop hcondition hbody _ ih => exact .counter op htoken hop hcondition hbody ih
  | when _ ih =>
    intro _ _ _ ho hs
    cases hs with
    | when hc hb =>
      obtain ⟨b', hb', hrun⟩ := ih.block ho hb
      exact runs_of_one (.when hc hb') fun options rounds => by simp only [Step.run, hrun]
  | choose _ _ ihb iho =>
    intro _ _ _ ho hs
    cases hs with
    | choose hc hb hother =>
      obtain ⟨b', hb', hrun⟩ := ihb.block ho hb
      obtain ⟨o', ho', hrun'⟩ := iho.block (hb.keepsOpen ho) hother
      exact runs_of_one (.choose hc hb' ho') fun options rounds => by simp only [Step.run, hrun, hrun']
  | loop _ _ _ ihi ihu ihb =>
    intro _ _ _ ho hs
    cases hs with
    | loop hi hc hu hb =>
      have hopen := hi.keepsOpen ho.push
      obtain ⟨i', hi', hruni⟩ := ihi.one trivial ho.push hi
      obtain ⟨u', hu', hrunu⟩ := ihu.one trivial hopen hu
      obtain ⟨b', hb', hrunb⟩ := ihb.block (hu.keepsOpen hopen) hb
      exact runs_of_one (.loop hi' hc hu' hb') fun options rounds => by simp only [Step.run, hruni, hrunu, hrunb]
  | each _ ih =>
    intro _ _ _ ho hs
    cases hs with
    | each hx hc hb =>
      obtain ⟨b', hb', hrun⟩ := ih.block (ho.push.declare _) hb
      exact runs_of_one (.each hx hc hb') fun options rounds => by simp only [Step.run, hrun]
  | switch _ ih =>
    intro _ _ _ ho hs
    cases hs with
    | switch he hb =>
      obtain ⟨b', hb', hrun⟩ := ih.block ho hb
      exact runs_of_one (.switch he hb') fun options rounds => by simp only [Step.run, hrun]
  | update _ ih =>
    intro _ _ _ ho hs
    cases hs with
    | update hs =>
      obtain ⟨u', hu', hrun⟩ := ih.one trivial ho hs
      exact runs_of_one (.update hu') hrun
  | body _ ih =>
    intro _ _ _ ho hs
    cases hs with
    | body hs =>
      obtain ⟨steps', hs', hrun⟩ := ih _ _ _ ho.push hs
      exact runs_of_one (.body hs') fun options rounds => by
        simp only [Step.run, Block.run, runAll_joinWrites, hrun]
  | statement _ ih =>
    intro _ _ _ ho hs
    cases hs with
    | statement hs =>
      obtain ⟨step', hs', hrun⟩ := ih.one trivial ho hs
      exact runs_of_one (.statement hs') hrun
  | block _ ih =>
    intro _ _ _ ho hs
    cases hs with
    | block hb =>
      obtain ⟨b', hb', hrun⟩ := ih.block ho hb
      exact runs_of_one (.block hb') fun options rounds => by simp only [Step.run, hrun]
  | element _ _ iha ihc =>
    intro _ _ _ ho hs
    cases hs with
    | closed hn hs ht =>
      obtain ⟨inTag', ht', hrun⟩ := iha _ _ _ ho ht
      exact ⟨_, .closed hn hs ht', fun options rounds => by
        simp only [List.cons_append, runAll_write, runAll_append, hrun]⟩
    | element hn hs ht hc =>
      obtain ⟨inTag', ht', hrun⟩ := iha _ _ _ ho ht
      obtain ⟨inside', hc', hrun'⟩ := ihc _ _ _ (ht.keepsOpen ho) hc
      exact ⟨_, .element hn hs ht' hc', fun options rounds => by
        simp only [List.cons_append, runAll_write, runAll_append, hrun, hrun']⟩
  | cons _ _ ihs ihr =>
    intro _ _ _ ho hs
    cases hs with
    | cons hs hr =>
      obtain ⟨steps', hs', hrun⟩ := ihs _ _ _ ho hs
      obtain ⟨more', hr', hrun'⟩ := ihr _ _ _ (hs.keepsOpen ho) hr
      exact ⟨_, .cons hs' hr', fun options rounds => by rw [runAll_append, runAll_append, hrun, hrun']⟩
  | valued _ ih =>
    intro _ _ _ ho hs
    cases hs with
    | valued hn hs =>
      obtain ⟨steps', hs', hrun⟩ := ih _ _ _ ho hs
      exact ⟨_, .valued hn hs', fun options rounds => by
        simp only [List.cons_append, runAll_write, runAll_append, hrun]⟩
  | moreAttributes _ _ ihs ihr =>
    intro _ _ _ ho hs
    cases hs with
    | moreAttributes hs hr =>
      obtain ⟨steps', hs', hrun⟩ := ihs _ _ _ ho hs
      obtain ⟨more', hr', hrun'⟩ := ihr _ _ _ (hs.keepsOpen ho) hr
      exact ⟨_, .moreAttributes hs' hr', fun options rounds => by rw [runAll_append, runAll_append, hrun, hrun']⟩

end RunsAs

/--
Where loops count by assignment instead of by an update, a template is accepted with the same slots, and it renders
every model to the same text or to the same failure, in as many rounds and under the same limits.
-/
theorem recounted_renders {t t' : List Segment} {program : Program} (ht : (compile t).result = .ok program)
    (h : Recounted (.segments t) (.segments t')) :
    ∃ program', (compile t').result = .ok program' ∧ program'.slots = program.slots ∧
      ∀ options rounds model, program'.render options rounds model = program.render options rounds model := by
  obtain ⟨steps, scope, hc, rfl⟩ := compile_ok_iff.1 ht
  have ho : Scope.empty.push.Open := ⟨⟨List.nodup_nil, by simp [Scope.empty, Scope.push]⟩, by simp [Scope.push]⟩
  obtain ⟨steps', hc', hrun⟩ := h.runsAs _ _ _ ho hc
  refine ⟨_, compile_ok_iff.2 ⟨steps', scope, hc', rfl⟩, rfl, fun options rounds model => ?_⟩
  simp only [Program.render, Program.start, Block.run, runAll_joinWrites, hrun]

/--
A loop that counts up past the integers, with `up` for its increment. In its body another `i` counts down, by `down`,
and a third one is assigned.
-/
def countedLoops (up down : Segment) : List Segment := [
  .statement (.loop (.assign (.name "i") (.literal "9223372036854775806")) (.binary "<" (.name "i") (.name "end")) up [
    .statement (.loop (.assign (.name "i") (.literal "1")) (.binary ">=" (.name "i") (.literal "0")) down
      [.expr (.name "i")]),
    .statement (.each "i" (.name "items") [.statement (.assign (.name "i") (.literal "\"x\""))]),
    .expr (.name "i")])]

def countedByUpdates : List Segment := countedLoops (.expr (.unary "++" (.name "i"))) (.expr (.unary "--" (.name "i")))

def countedByAssignments : List Segment :=
  countedLoops (.statement (.assign (.name "i") (.binary "+" (.name "i") (.literal "1"))))
    (.statement (.assign (.name "i") (.binary "-" (.name "i") (.literal "1"))))

theorem exists_ok_of_isOk {ε α : Type} {x : Except ε α} (h : x.isOk) : ∃ a, x = .ok a := by
  cases x with
  | ok a => exact ⟨a, rfl⟩
  | error e => cases h

theorem recounted_renders_countedLoops :
    ∃ program, (compile countedByUpdates).result = .ok program ∧
      Recounted (.segments countedByUpdates) (.segments countedByAssignments) ∧
      ∃ program', (compile countedByAssignments).result = .ok program' ∧ program'.slots = program.slots ∧
        ∀ options rounds model, program'.render options rounds model = program.render options rounds model := by
  have hdown : Recounted
      (.statement false (.loop (.assign (.name "i") (.literal "1")) (.binary ">=" (.name "i") (.literal "0"))
        (.expr (.unary "--" (.name "i"))) [.expr (.name "i")])) _ :=
    .counter (n := 1) .decrement rfl rfl (by simp [Expr.Spares]) (by simp [Segment.SparesAll, Segment.Spares, Expr.Spares])
      .same
  have hfirst : Literal.decode "9223372036854775806" = .ok (.integer 9223372036854775806) := by cbv
  have h : Recounted (.segments countedByUpdates) (.segments countedByAssignments) := by
    refine .cons (.statement (.counter .increment hfirst rfl ?_ ?_ (.body (.cons (.statement hdown) .same)))) .same
    · simp [Expr.Spares]
    · simp [Segment.SparesAll, Segment.Spares, Statement.Spares, Expr.Spares, Statement.unshadowed, unshadowed]
  have haccepted : (compile countedByUpdates).result.isOk := by decide +kernel
  obtain ⟨program, ht⟩ := exists_ok_of_isOk haccepted
  exact ⟨program, ht, h, recounted_renders ht h⟩

end Stencil
