import Mathlib
import Stencil.Proofs.Acceptance
/-!
# Faults and their causes

Every fault of a render comes from a construct of the program that can raise it (`Fault.HasCause`): operators,
methods, updates, stores and loops. What the coercions of values and the branches of operators leave possible is
said once for each construct; runs only pass faults on (`Step.run_caused`). So a template without these constructs
never fails, whatever it is given.
-/

namespace Stencil

/-! ## What occurs in a program -/

mutual

/-- The term and the terms inside it. -/
def Term.parts : Term → List Term
  | .const v => [.const v]
  | .variable x => [.variable x]
  | .model name => [.model name]
  | .member target name => .member target name :: target.parts
  | .index target position => .index target position :: (target.parts ++ position.parts)
  | .call target method args => .call target method args :: (target.parts ++ Term.partsArgs args)
  | .unary op operand => .unary op operand :: operand.parts
  | .update op x => [.update op x]
  | .binary op left right => .binary op left right :: (left.parts ++ right.parts)
  | .conditional condition ifTrue ifFalse =>
    .conditional condition ifTrue ifFalse :: (condition.parts ++ ifTrue.parts ++ ifFalse.parts)

def Term.partsArgs : List Term → List Term
  | [] => []
  | e :: rest => e.parts ++ Term.partsArgs rest

end

mutual

/-- The step and the steps inside it. -/
def Step.parts : Step → List Step
  | .block body => .block body :: body.parts
  | .when condition body => .when condition body :: body.parts
  | .choose condition body otherwise => .choose condition body otherwise :: (body.parts ++ otherwise.parts)
  | .loop locals initial condition update body =>
    .loop locals initial condition update body :: (initial.parts ++ update.parts ++ body.parts)
  | .each x collection body => .each x collection body :: body.parts
  | .switch subject body => .switch subject body :: body.parts
  | step => [step]

def Block.parts : Block → List Step
  | .mk _ steps => Step.partsAll steps

def Step.partsAll : List Step → List Step
  | [] => []
  | step :: rest => step.parts ++ Step.partsAll rest

end

/-- The terms of the step itself, not those of the steps inside it. -/
def Step.terms : Step → List Term
  | .write _ | .block _ => []
  | .emit e | .eval e | .declare _ e | .assign _ e | .store _ e => [e]
  | .when e _ | .choose e _ _ | .loop _ _ e _ _ | .each _ e _ | .switch e _ => [e]
  | .label _ guard => guard.toList

/-- All steps of the program. -/
def Program.steps (program : Program) : List Step := program.body.parts

/-- All terms of the program. -/
def Program.terms (program : Program) : List Term :=
  program.steps.flatMap fun step => step.terms.flatMap Term.parts

/-! ## Causes -/

/-- The loop steps that have rounds. -/
def Step.HasRounds : Step → Prop
  | .loop _ _ _ _ _ | .each _ _ _ => True
  | _ => False

def Step.IsLoop : Step → Prop
  | .loop _ _ _ _ _ => True
  | _ => False

/-- An array or an object. -/
def Kind.IsCompound (kind : Kind) : Prop := kind.text = "an array" ∨ kind.text = "an object"

/-- The program has what raises the fault, and the fault tells what that was given. -/
def Fault.HasCause (limit : Option UInt64) (program : Program) : Fault → Prop
  | .unaryOperand op operand =>
    (∃ e, .unary op e ∈ program.terms) ∧ op.symbol ∈ ["-", "+"] ∧ operand.IsCompound
  | .arithmeticOperands op left right =>
    (∃ l r, .binary (.arithmetic op) l r ∈ program.terms) ∧ op.symbol ∈ ["-", "*", "/", "%"] ∧
      (left.IsCompound ∨ right.IsCompound)
  | .callOnNullish method _ | .unknownMethod method _ | .invalidArgument method _ =>
    ∃ e args, .call e method args ∈ program.terms
  | .notIterable found =>
    (∃ x e body, .each x e body ∈ program.steps) ∧ (found.text = "a boolean" ∨ found.text = "a number")
  | .invalidAssignment path _ => ∃ place e, .store place e ∈ program.steps ∧ place.text = path
  | .invalidUpdate op name found => (∃ x, .update op x ∈ program.terms ∧ x.name = name) ∧ found.IsCompound
  | .iterationLimit bound => limit = some bound ∧ ∃ step ∈ program.steps, step.HasRounds

/-- Only `loop` steps run out of rounds. -/
def Halt.HasCause (limit : Option UInt64) (program : Program) : Halt → Prop
  | .fault f => f.HasCause limit program
  | .missingSlot _ => True
  | .exhausted => ∃ step ∈ program.steps, step.IsLoop

/-! ## Operators and methods -/

theorem kind_isCompound {v : Value} (h : v.toNumber? = none) : v.kind.IsCompound := by
  cases v <;> simp_all [Value.toNumber?, Value.kind, Kind.IsCompound, Kind.text]

theorem UnaryOp.coerced_error {op : UnaryOp} {v : Value} {f : Fault} (h : op.coerced v = .error f) :
    f = .unaryOperand op v.kind ∧ v.kind.IsCompound := by
  unfold UnaryOp.coerced at h
  split at h
  · cases h
  · rename_i hv
    cases h
    exact ⟨rfl, kind_isCompound hv⟩

/-- `!` takes every value, `-` and `+` take all but arrays and objects. -/
theorem UnaryOp.apply_error {op : UnaryOp} {v : Value} {f : Fault} (h : op.apply v = .error f) :
    f = .unaryOperand op v.kind ∧ op.symbol ∈ ["-", "+"] ∧ v.kind.IsCompound := by
  unfold UnaryOp.apply at h
  split at h
  · cases h
  · split at h <;> cases h
  · cases h
  · cases h
  · rename_i hnot _ _ _
    obtain ⟨hf, hk⟩ := UnaryOp.coerced_error h
    refine ⟨hf, ?_, hk⟩
    cases op with
    | not => exact (hnot rfl).elim
    | negate | plus => simp [UnaryOp.symbol]

theorem ArithmeticOp.compute?_none {op : ArithmeticOp} {l r : Value} (h : op.compute? l r = none) :
    l.toNumber? = none ∨ r.toNumber? = none := by
  have coerced : op.coerced? l r = none := by
    unfold ArithmeticOp.compute? at h
    split at h
    · split at h
      · cases h
      · exact h
    · exact h
  cases hl : l.toNumber? with
  | none => exact .inl rfl
  | some x =>
    cases hr : r.toNumber? with
    | none => exact .inr rfl
    | some y => simp [ArithmeticOp.coerced?, hl, hr] at coerced

theorem isJoined_of_toNumber?_none {v : Value} (h : v.toNumber? = none) : v.isJoined = true := by
  cases v <;> simp_all [Value.toNumber?, Value.isJoined]

/-- `+` joins the texts of what has no numeric form, so it takes every two values. -/
theorem ArithmeticOp.apply_error {op : ArithmeticOp} {l r : Value} {f : Fault} (h : op.apply l r = .error f) :
    f = .arithmeticOperands op l.kind r.kind ∧ op.symbol ∈ ["-", "*", "/", "%"] ∧
      (l.kind.IsCompound ∨ r.kind.IsCompound) := by
  unfold ArithmeticOp.apply at h
  split at h
  · cases h
  · rename_i hjoin
    split at h
    · cases h
    · rename_i hnone
      cases h
      have hk := ArithmeticOp.compute?_none hnone
      refine ⟨rfl, ?_, hk.imp kind_isCompound kind_isCompound⟩
      cases op with
      | add =>
        -- an operand without a numeric form is joined as a text
        refine (hjoin ⟨rfl, ?_⟩).elim
        rcases hk with hl | hr
        · simp [isJoined_of_toNumber?_none hl]
        · simp [isJoined_of_toNumber?_none hr]
      | subtract | multiply | divide | remainder => simp [ArithmeticOp.symbol]

theorem BinaryOp.apply_error {op : BinaryOp} {l r : Value} {f : Fault} (h : op.apply l r = .error f) :
    ∃ a, op = .arithmetic a ∧ f = .arithmeticOperands a l.kind r.kind ∧ a.symbol ∈ ["-", "*", "/", "%"] ∧
      (l.kind.IsCompound ∨ r.kind.IsCompound) := by
  cases op with
  | arithmetic a => exact ⟨a, rfl, ArithmeticOp.apply_error h⟩
  | equality | order | logical => cases h

theorem UpdateOp.apply?_none {op : UpdateOp} {v : Value} (h : op.apply? v = none) : v.kind.IsCompound := by
  unfold UpdateOp.apply? at h
  split at h
  · split at h <;> cases h
  · exact kind_isCompound (Option.map_eq_none_iff.1 h)

theorem Value.items_error {v : Value} {f : Fault} (h : v.items = .error f) :
    ∃ kind, f = .notIterable kind ∧ (kind.text = "a boolean" ∨ kind.text = "a number") := by
  cases v <;> simp_all [Value.items, Value.kind, Kind.text, eq_comm]

/-! ### Methods -/

/-- The method that a call failed in. -/
def Fault.method? : Fault → Option String
  | .callOnNullish method _ | .unknownMethod method _ | .invalidArgument method _ => some method
  | _ => none

/-- If it fails, it fails in a call of the method. -/
def FailsIn {α : Type} (method : String) (x : Except Fault α) : Prop := ∀ f, x = .error f → f.method? = some method

section FailsIn
variable {α β : Type} {method : String}

theorem FailsIn.ok (a : α) : FailsIn method (.ok a) := fun _ h => by cases h

theorem FailsIn.error {f : Fault} (h : f.method? = some method) : FailsIn method (.error f : Except Fault α) := by
  rintro _ ⟨⟩
  exact h

theorem FailsIn.bind {x : Except Fault α} {g : α → Except Fault β} (hx : FailsIn method x)
    (hg : ∀ a, FailsIn method (g a)) : FailsIn method (x >>= g) := by
  cases x with
  | ok a => exact hg a
  | error f => exact .error (hx f rfl)

theorem Argument.text_failsIn (args : List Value) (position : Nat) :
    FailsIn method (Argument.text method args position) := by
  unfold Argument.text
  split
  · exact .ok _
  · exact .error rfl
  · exact .error rfl

theorem Argument.integer?_failsIn (args : List Value) (position : Nat) :
    FailsIn method (Argument.integer? method args position) := by
  unfold Argument.integer?
  split
  · exact .ok _
  · exact .ok _
  · exact .ok _
  · split
    · exact .ok _
    · exact .error rfl

theorem TextMethod.call_failsIn (method : TextMethod) (cs : List Char) (args : List Value) :
    FailsIn method.name (method.call cs args) := by
  have text : ∀ k, FailsIn method.name (Argument.text method.name args k) := Argument.text_failsIn args
  have integer : ∀ k, FailsIn method.name (Argument.integer? method.name args k) := Argument.integer?_failsIn args
  cases method with
  | toUpperCase | toLowerCase | trim => exact .ok _
  | includes | startsWith | endsWith | indexOf | split => exact .bind (text 0) fun _ => .ok _
  | charAt => exact .bind (integer 0) fun _ => .ok _
  | substring => exact .bind (integer 0) fun _ => .bind (integer 1) fun _ => .ok _
  | replace => exact .bind (text 0) fun _ => .bind (text 1) fun _ => .ok _

theorem ArrayMethod.call_failsIn (method : ArrayMethod) (items args : List Value) :
    FailsIn method.name (method.call items args) := by
  cases method with
  | join =>
    refine .bind ?_ fun _ => .ok _
    unfold ArrayMethod.separator
    split
    · exact .ok _
    · exact .ok _
    · exact .bind (Argument.text_failsIn args 0) fun _ => .ok _
  | slice =>
    exact .bind (Argument.integer?_failsIn args 0) fun _ => .bind (Argument.integer?_failsIn args 1) fun _ => .ok _
  | includes | indexOf | reverse | concat => exact .ok _

theorem toFixed_failsIn (target : Value) (args : List Value) : FailsIn "toFixed" (toFixed target args) := by
  refine .bind (Argument.integer?_failsIn args 0) fun digits => ?_
  dsimp only
  split
  · exact .error rfl
  · split <;> exact .ok _

theorem callMethod_failsIn (v : Value) (method : String) (args : List Value) :
    FailsIn method (callMethod v method args) := by
  unfold callMethod
  split
  · exact .error rfl
  · split
    · exact .ok _
    · dsimp only
      split
      · cases h : TextMethod.ofName? method with
        | none => exact .error rfl
        | some m =>
          have hm : m.name = method := by simpa using List.find?_some h
          exact hm ▸ m.call_failsIn _ args
      · cases h : ArrayMethod.ofName? method with
        | none => exact .error rfl
        | some m =>
          have hm : m.name = method := by simpa using List.find?_some h
          exact hm ▸ m.call_failsIn _ args
      · split
        · rename_i h
          exact h ▸ toFixed_failsIn _ args
        · exact .error rfl
      · split
        · rename_i h
          exact h ▸ toFixed_failsIn _ args
        · exact .error rfl
      · exact .error rfl

end FailsIn

/-! ## Runs pass faults on -/

/-- What the run halts with has its cause in the program. -/
def Caused {σ α : Type} (limit : Option UInt64) (program : Program) (x : EStateM Halt σ α) : Prop :=
  Keeps (fun _ => True) (Halt.HasCause limit program) x

section Runs
variable {α : Type} {options : Options} {program : Program}

theorem Eval.get_caused (limit : Option UInt64) (slot : Nat) : Caused limit program (Eval.get slot) :=
  Eval.get_keeps trivial

theorem Eval.set_caused (limit : Option UInt64) (slot : Nat) (v : Value) : Caused limit program (Eval.set slot v) :=
  Eval.set_keeps trivial fun _ _ => trivial

theorem Eval.reset_caused (limit : Option UInt64) (locals : List Nat) : Caused limit program (Eval.reset locals) :=
  Eval.reset_keeps fun slot _ => Eval.set_caused limit slot _

theorem Eval.ofExcept_caused {limit : Option UInt64} {r : Except Fault α}
    (h : ∀ f, r = .error f → f.HasCause limit program) : Caused limit program (Eval.ofExcept r) := by
  cases r with
  | ok a => exact .pure a
  | error f => exact .throw (h f rfl)

theorem Exec.eval_caused {limit : Option UInt64} {run : Value → Eval α}
    (h : ∀ model, Caused limit program (run model)) : Caused limit program (Exec.eval run) :=
  Exec.eval_keeps fun m _ => h m.model

/-- Where the method is called, what fails in it has its cause. -/
theorem Fault.hasCause_of_method? {limit : Option UInt64} {f : Fault} {method : String} {e : Term} {args : List Term}
    (hf : f.method? = some method) (hc : .call e method args ∈ program.terms) : f.HasCause limit program := by
  cases f <;> simp only [Fault.method?, Option.some.injEq, reduceCtorEq] at hf
  all_goals
    subst hf
    exact ⟨e, args, hc⟩

mutual

theorem Term.eval_caused {limit : Option UInt64} {model : Value} :
    ∀ e : Term, e.parts ⊆ program.terms → Caused limit program (e.eval model)
  | .const _, _ | .model _, _ => .pure _
  | .variable x, _ => Eval.get_caused limit x.slot
  | .member target _, h => by
    rw [Term.parts, List.cons_subset] at h
    exact .bind (Term.eval_caused target h.2) fun _ => .pure _
  | .index target position, h => by
    rw [Term.parts, List.cons_subset, List.append_subset] at h
    exact .bind (Term.eval_caused target h.2.1) fun _ => .bind (Term.eval_caused position h.2.2) fun _ => .pure _
  | .call target method args, h => by
    rw [Term.parts, List.cons_subset, List.append_subset] at h
    refine .bind (Term.eval_caused target h.2.1) fun v => .bind (Term.evalArgs_caused args h.2.2) fun vs => ?_
    exact Eval.ofExcept_caused fun f hf => Fault.hasCause_of_method? (callMethod_failsIn v method vs f hf) h.1
  | .unary op operand, h => by
    rw [Term.parts, List.cons_subset] at h
    refine .bind (Term.eval_caused operand h.2) fun v => Eval.ofExcept_caused fun f hf => ?_
    obtain ⟨rfl, hs, hk⟩ := UnaryOp.apply_error hf
    exact ⟨⟨operand, h.1⟩, hs, hk⟩
  | .update op x, h => by
    refine .bind (Eval.get_caused limit x.slot) fun v => ?_
    cases hv : op.apply? v with
    | some w => exact .bind (Eval.set_caused limit x.slot w) fun _ => .pure w
    | none => exact .throw ⟨⟨x, by simpa [Term.parts] using h, rfl⟩, UpdateOp.apply?_none hv⟩
  | .binary op left right, h => by
    rw [Term.parts, List.cons_subset, List.append_subset] at h
    refine .bind (Term.eval_caused left h.2.1) fun v => ?_
    split
    · exact .pure v
    · refine .bind (Term.eval_caused right h.2.2) fun w => Eval.ofExcept_caused fun f hf => ?_
      obtain ⟨a, rfl, rfl, hs, hk⟩ := BinaryOp.apply_error hf
      exact ⟨⟨left, right, h.1⟩, hs, hk⟩
  | .conditional condition ifTrue ifFalse, h => by
    rw [Term.parts, List.cons_subset, List.append_subset, List.append_subset] at h
    refine .bind (Term.eval_caused condition h.2.1.1) fun v => ?_
    split
    · exact Term.eval_caused ifTrue h.2.1.2
    · exact Term.eval_caused ifFalse h.2.2

theorem Term.evalArgs_caused {limit : Option UInt64} {model : Value} :
    ∀ es : List Term, Term.partsArgs es ⊆ program.terms → Caused limit program (Term.evalArgs model es)
  | [], _ => .pure _
  | e :: rest, h => by
    rw [Term.partsArgs, List.append_subset] at h
    exact .bind (Term.eval_caused e h.1) fun _ => .bind (Term.evalArgs_caused rest h.2) fun _ => .pure _

end

/-- A step of the program has terms of the program. -/
theorem Term.run_caused {limit : Option UInt64} {step : Step} {e : Term} (hs : step ∈ program.steps)
    (he : e ∈ step.terms) : Caused limit program e.run :=
  Exec.eval_caused fun _ => Term.eval_caused e fun _ ht =>
    List.mem_flatMap.2 ⟨step, hs, List.mem_flatMap.2 ⟨e, he, ht⟩⟩

theorem set_caused (limit : Option UInt64) (slot : Nat) (v : Value) :
    Caused limit program (Exec.eval fun _ => Eval.set slot v) :=
  Exec.eval_caused fun _ => Eval.set_caused limit slot v

theorem reset_caused (limit : Option UInt64) (locals : List Nat) :
    Caused limit program (Exec.eval fun _ => Eval.reset locals) :=
  Exec.eval_caused fun _ => Eval.reset_caused limit locals

theorem write_caused (limit : Option UInt64) (s : String) : Caused limit program (Exec.write s) := fun _ _ => trivial

theorem tick_caused {step : Step} (hs : step ∈ program.steps) (hr : step.HasRounds) :
    Caused options.iterationLimit program (Exec.tick options.iterationLimit) := by
  intro m _
  cases hl : options.iterationLimit with
  | none => trivial
  | some limit =>
    rw [Exec.tick_some]
    by_cases h : limit.toNat < m.iterations + 1
    · rw [if_pos h]
      exact ⟨trivial, rfl, step, hs, hr⟩
    · rw [if_neg h]
      trivial

theorem items_caused {limit : Option UInt64} {x : Local} {e : Term} {body : Block}
    (hs : .each x e body ∈ program.steps) (v : Value) : Caused limit program (Exec.ofExcept v.items) := by
  cases h : v.items with
  | ok items => exact .pure items
  | error f =>
    obtain ⟨kind, rfl, hk⟩ := Value.items_error h
    exact .throw ⟨⟨x, e, body, hs⟩, hk⟩

theorem store_caused {limit : Option UInt64} {place : Place} {e : Term} (hs : .store place e ∈ program.steps)
    (v : Value) : Caused limit program (Exec.store place v) := by
  obtain ⟨x | name, path⟩ := place
  · refine .bind (Exec.eval_caused fun _ => Eval.get_caused limit x.slot) fun target => .bind ?_ fun updated =>
      set_caused limit x.slot updated
    dsimp only
    split
    · exact .pure _
    · exact .throw ⟨_, e, hs, rfl⟩
  · refine .bind (fun _ _ => trivial) fun m => .bind ?_ fun updated => fun _ _ => trivial
    dsimp only
    split
    · exact .pure _
    · exact .throw ⟨_, e, hs, rfl⟩

mutual

/-- A step of a program halts for a cause in the program. -/
theorem Step.run_caused (rounds : Nat) : ∀ step : Step, step.parts ⊆ program.steps →
    Caused options.iterationLimit program (step.run options rounds)
  | .write s, _ => write_caused _ s
  | .emit e, h => .bind (Term.run_caused (h List.mem_cons_self) List.mem_cons_self) fun _ => write_caused _ _
  | .declare x e, h | .assign x e, h =>
    .bind (Term.run_caused (h List.mem_cons_self) List.mem_cons_self) fun v => set_caused _ x.slot v
  | .store place e, h =>
    .bind (Term.run_caused (h List.mem_cons_self) List.mem_cons_self) fun v => store_caused (h List.mem_cons_self) v
  | .eval e, h => .discard (Term.run_caused (h List.mem_cons_self) List.mem_cons_self)
  | .block body, h => Block.run_caused rounds body (List.cons_subset.1 h).2
  | .when condition body, h => by
    obtain ⟨hs, hb⟩ := List.cons_subset.1 h
    refine .bind (Term.run_caused hs List.mem_cons_self) fun v => ?_
    split
    · exact Block.run_caused rounds body hb
    · exact .pure ()
  | .choose condition body otherwise, h => by
    obtain ⟨hs, hbo⟩ := List.cons_subset.1 h
    obtain ⟨hb, ho⟩ := List.append_subset.1 hbo
    refine .bind (Term.run_caused hs List.mem_cons_self) fun v => ?_
    split
    · exact Block.run_caused rounds body hb
    · exact Block.run_caused rounds otherwise ho
  | .loop locals initial condition update body, h => by
    obtain ⟨hs, hiub⟩ := List.cons_subset.1 h
    obtain ⟨hiu, hb⟩ := List.append_subset.1 hiub
    obtain ⟨hi, hu⟩ := List.append_subset.1 hiu
    refine .bind (reset_caused _ locals) fun _ => .bind (Step.run_caused rounds initial hi) fun _ => ?_
    -- the loop itself may run out of rounds
    refine Kept.loop ⟨_, hs, trivial⟩ (.bind (Term.run_caused hs List.mem_cons_self) fun _ => .pure _) ?_ rounds
    exact .bind (tick_caused hs trivial) fun _ => .bind (Block.run_caused rounds body hb) fun _ =>
      Step.run_caused rounds update hu
  | .each x collection body, h => by
    obtain ⟨hs, hb⟩ := List.cons_subset.1 h
    refine .bind (Term.run_caused hs List.mem_cons_self) fun v => .bind (items_caused hs v) fun items => ?_
    refine .forM (fun item => .bind (tick_caused hs trivial) fun _ => ?_) items
    exact .bind (set_caused _ x.slot item) fun _ => Block.run_caused rounds body hb
  | .switch subject body, h => by
    obtain ⟨hs, hb⟩ := List.cons_subset.1 h
    exact .bind (.discard (Term.run_caused hs List.mem_cons_self)) fun _ => Block.run_caused rounds body hb
  | .label _ none, _ => .pure ()
  | .label _ (some guard), h => .discard (Term.run_caused (h List.mem_cons_self) List.mem_cons_self)

theorem Block.run_caused (rounds : Nat) : ∀ b : Block, b.parts ⊆ program.steps →
    Caused options.iterationLimit program (b.run options rounds)
  | .mk locals steps, h => .bind (reset_caused _ locals) fun _ => Step.runAll_caused rounds steps h

theorem Step.runAll_caused (rounds : Nat) : ∀ steps : List Step, Step.partsAll steps ⊆ program.steps →
    Caused options.iterationLimit program (Step.runAll options rounds steps)
  | [], _ => .pure ()
  | step :: rest, h => by
    obtain ⟨hs, hr⟩ := List.append_subset.1 h
    exact .bind (Step.run_caused rounds step hs) fun _ => Step.runAll_caused rounds rest hr

end

theorem Program.render_caused {rounds : Nat} {model : Value} {halt : Halt}
    (h : program.render options rounds model = .error halt) : halt.HasCause options.iterationLimit program := by
  have caused : Caused options.iterationLimit program (program.body.run options rounds) :=
    Block.run_caused rounds program.body (List.Subset.refl program.steps)
  have hr := caused (program.start model) trivial
  unfold Program.render at h
  cases hrun : program.body.run options rounds (program.start model) with
  | ok _ m => simp [hrun] at h
  | error halt' m =>
    rw [hrun] at h hr
    cases h
    exact hr.2

end Runs

/-! ## Templates that never fail -/

/-- The binary operators that take every two values. -/
def totalSymbols : List String := ["+", "==", "!=", "===", "!==", "<", "<=", ">", ">=", "&&", "||", "??"]

/-- Literals, names, members, indices, `!`, the binary operators that take every two values, and conditionals. -/
def Expr.Plain : Expr → Prop
  | .literal _ | .name _ => True
  | .member target _ => target.Plain
  | .index target position => target.Plain ∧ position.Plain
  | .call _ _ _ => False
  | .unary operator operand => operatorSymbol operator = "!" ∧ operand.Plain
  | .binary operator left right => operatorSymbol operator ∈ totalSymbols ∧ left.Plain ∧ right.Plain
  | .conditional condition ifTrue ifFalse => condition.Plain ∧ ifTrue.Plain ∧ ifFalse.Plain

mutual

/-- Assignments to bare names, conditions, switches and labels, with plain expressions. -/
def Statement.Plain : Statement → Prop
  | .assign (.name _) value => value.Plain
  | .assign (.member _ _) _ | .loop _ _ _ _ | .each _ _ _ => False
  | .when condition body => condition.Plain ∧ Segment.PlainAll body
  | .choose condition body otherwise => condition.Plain ∧ Segment.PlainAll body ∧ Segment.PlainAll otherwise
  | .switch subject body => subject.Plain ∧ Segment.PlainAll body
  | .label _ guard => ∀ e ∈ guard, e.Plain

def Segment.Plain : Segment → Prop
  | .text _ => True
  | .expr e => e.Plain
  | .statement s => s.Plain
  | .block body => Segment.PlainAll body
  | .element _ attributes _ _ children => Attribute.PlainAll attributes ∧ Segment.PlainAll children

def Segment.PlainAll : List Segment → Prop
  | [] => True
  | s :: rest => s.Plain ∧ Segment.PlainAll rest

def Attribute.Plain : Attribute → Prop
  | .flag _ => True
  | .valued _ value => Segment.PlainAll value

def Attribute.PlainAll : List Attribute → Prop
  | [] => True
  | a :: rest => a.Plain ∧ Attribute.PlainAll rest

end

def Part.Plain : Part → Prop
  | .statement _ s => s.Plain
  | .increment s | .segment s => s.Plain
  | .body l | .segments l => Segment.PlainAll l
  | .attribute a => a.Plain
  | .attributes l => Attribute.PlainAll l

/-- The term itself raises no fault. -/
def Term.Total : Term → Prop
  | .call _ _ _ | .update _ _ => False
  | .unary op _ => op = .not
  | .binary op _ _ => op.symbol ∈ totalSymbols
  | _ => True

/-- The step itself raises no fault, and no term of it does. -/
def Step.Total : Step → Prop
  | .store _ _ | .loop _ _ _ _ _ | .each _ _ _ => False
  | step => ∀ e ∈ step.terms, ∀ t ∈ e.parts, t.Total

section Plain

theorem Expr.compile_total {scope : Scope} : ∀ e : Expr, e.Plain → ∀ t, (e.compile scope).result = .ok t →
    ∀ p ∈ t.parts, p.Total
  | .literal _, _ => by
    intro _ ht
    obtain ⟨v, -, rfl⟩ := literal_compile_ok.1 ht
    simp [Term.parts, Term.Total]
  | .name x, _ => by
    intro _ ht
    obtain ⟨-, rfl⟩ := name_compile_ok.1 ht
    unfold Scope.term
    cases scope.resolve? x <;> simp [Term.parts, Term.Total]
  | .member target _, h => by
    intro _ ht
    obtain ⟨-, e, he, rfl⟩ := member_compile_ok.1 ht
    have ih := Expr.compile_total target h e he
    simpa [Term.parts, Term.Total] using ih
  | .index target position, h => by
    intro _ ht
    obtain ⟨e, i, he, hi, rfl⟩ := index_compile_ok.1 ht
    have iht := Expr.compile_total target h.1 e he
    have ihp := Expr.compile_total position h.2 i hi
    simpa [Term.parts, Term.Total, or_imp, forall_and] using ⟨iht, ihp⟩
  | .call _ _ _, h => h.elim
  | .unary _ operand, h => by
    intro _ ht
    rcases unary_compile_ok.1 ht with ⟨op, e, hop, he, rfl⟩ | ⟨op, x, y, hop, -, -, -, rfl⟩
    · have ih := Expr.compile_total operand h.2 e he
      have hs : "!" = op.symbol := h.1.symm.trans (PrefixOp.ofSymbol?_eq_some.1 hop)
      have hnot : op = .not := by cases op <;> simp_all [UnaryOp.symbol]
      simpa [Term.parts, Term.Total, hnot] using ih
    · have hs : "!" = op.symbol := h.1.symm.trans (PrefixOp.ofSymbol?_eq_some.1 hop)
      cases op <;> simp [UpdateOp.symbol] at hs
  | .binary _ left right, h => by
    intro _ ht
    obtain ⟨op, l, r, hop, hl, hr, rfl⟩ := binary_compile_ok.1 ht
    have ihl := Expr.compile_total left h.2.1 l hl
    have ihr := Expr.compile_total right h.2.2 r hr
    have hs : op.symbol ∈ totalSymbols := by
      rw [← BinaryOp.ofSymbol?_eq_some.1 hop]
      exact h.1
    simpa [Term.parts, Term.Total, hs, or_imp, forall_and] using ⟨ihl, ihr⟩
  | .conditional condition ifTrue ifFalse, h => by
    intro _ ht
    obtain ⟨c, a, b, hc, ha, hb, rfl⟩ := conditional_compile_ok.1 ht
    have ihc := Expr.compile_total condition h.1 c hc
    have iha := Expr.compile_total ifTrue h.2.1 a ha
    have ihb := Expr.compile_total ifFalse h.2.2 b hb
    simpa [Term.parts, Term.Total, or_imp, forall_and, and_assoc] using ⟨ihc, iha, ihb⟩

def Step.TotalAll (steps : List Step) : Prop := ∀ s ∈ Step.partsAll steps, s.Total

@[simp] theorem totalAll_nil : Step.TotalAll [] := by simp [Step.TotalAll, Step.partsAll]

@[simp] theorem totalAll_cons (step : Step) (rest : List Step) :
    Step.TotalAll (step :: rest) ↔ (∀ s ∈ step.parts, s.Total) ∧ Step.TotalAll rest := by
  simp [Step.TotalAll, Step.partsAll, or_imp, forall_and]

@[simp] theorem totalAll_append (a b : List Step) :
    Step.TotalAll (a ++ b) ↔ Step.TotalAll a ∧ Step.TotalAll b := by
  induction a with
  | nil => simp
  | cons step a ih => simp [ih, and_assoc]

theorem totalAll_joinWrites (steps : List Step) : Step.TotalAll (joinWrites steps) = Step.TotalAll steps := by
  refine joinWrites_eq Step.TotalAll (fun s rest => ?_) (fun step a b h => ?_) steps
  · simp [Step.parts, Step.Total, Step.terms]
  · simp [h]

/-- Plain parts of a template compile to steps that raise no faults. -/
theorem Compiled.total {scope scope' : Scope} {part : Part} {steps : List Step}
    (h : Compiled scope part steps scope') (hp : part.Plain) : Step.TotalAll steps := by
  induction h with
  | store | loop | each => exact hp.elim
  | declare he | assign he | evaluate he | emit he =>
    simpa [Step.parts, Step.Total, Step.terms] using Expr.compile_total _ hp _ he
  | when hc _ ih | switch hc _ ih =>
    have hb := ih hp.2
    simp only [totalAll_cons, totalAll_nil, Step.parts, List.forall_mem_cons, and_true] at hb ⊢
    exact ⟨by simpa [Step.Total, Step.terms] using Expr.compile_total _ hp.1 _ hc, hb.2⟩
  | choose hc _ _ ihb iho =>
    have hb := ihb hp.2.1
    have ho := iho hp.2.2
    simp only [totalAll_cons, totalAll_nil, Step.parts, List.forall_mem_cons, List.forall_mem_append, and_true]
      at hb ho ⊢
    exact ⟨by simpa [Step.Total, Step.terms] using Expr.compile_total _ hp.1 _ hc, hb.2, ho.2⟩
  | label => simp [Step.parts, Step.Total, Step.terms]
  | guarded _ he => simpa [Step.parts, Step.Total, Step.terms] using Expr.compile_total _ (hp _ rfl) _ he
  | update _ ih | statement _ ih | block _ ih => exact ih hp
  | body _ ih =>
    have hs := ih hp
    rw [← totalAll_joinWrites] at hs
    simp only [totalAll_cons, totalAll_nil, Step.parts, List.forall_mem_cons, and_true]
    exact ⟨by simp [Step.Total, Step.terms], hs⟩
  | text | flag => simp [Step.parts, Step.Total, Step.terms]
  | closed _ _ _ ih => simpa [Step.parts, Step.Total, Step.terms] using ih hp.1
  | element _ _ _ _ iha ihc => simpa [Step.parts, Step.Total, Step.terms] using And.intro (iha hp.1) (ihc hp.2)
  | nil | noAttributes => simp
  | cons _ _ ihs ihr | moreAttributes _ _ ihs ihr => simpa using And.intro (ihs hp.1) (ihr hp.2)
  | valued _ _ ih => simpa [Step.parts, Step.Total, Step.terms] using ih hp

theorem compile_total {segments : List Segment} {program : Program} (hp : Segment.PlainAll segments)
    (h : (compile segments).result = .ok program) : ∀ step ∈ program.steps, step.Total := by
  obtain ⟨steps, scope, hs, rfl⟩ := compile_ok_iff.1 h
  have ht := hs.total hp
  rwa [← totalAll_joinWrites] at ht

/-- The terms of steps that raise no fault raise none. -/
theorem Step.Total.term {step : Step} (h : step.Total) {e t : Term} (he : e ∈ step.terms) (ht : t ∈ e.parts) :
    t.Total := by
  cases step with
  | store | loop | each => exact h.elim
  | _ => exact h e he t ht

theorem Program.terms_total {program : Program} (h : ∀ step ∈ program.steps, step.Total) :
    ∀ t ∈ program.terms, t.Total := by
  intro t ht
  obtain ⟨step, hs, ht⟩ := List.mem_flatMap.1 ht
  obtain ⟨e, he, ht⟩ := List.mem_flatMap.1 ht
  exact (h step hs).term he ht

/-- Where nothing raises a fault, nothing is the cause of a halt but a missing slot. -/
theorem Halt.missing_of_total {program : Program} (h : ∀ step ∈ program.steps, step.Total) {limit : Option UInt64}
    {halt : Halt} (hc : halt.HasCause limit program) : ∃ slot, halt = .missingSlot slot := by
  have ht := Program.terms_total h
  cases halt with
  | missingSlot slot => exact ⟨slot, rfl⟩
  | exhausted =>
    obtain ⟨step, hs, hl⟩ := hc
    have total := h step hs
    cases step <;> simp_all [Step.IsLoop, Step.Total]
  | fault f =>
    exfalso
    cases f with
    | unaryOperand op operand =>
      obtain ⟨⟨e, he⟩, hs, -⟩ := hc
      cases (show op = .not from ht _ he)
      simp [UnaryOp.symbol] at hs
    | arithmeticOperands op left right =>
      obtain ⟨⟨l, r, he⟩, hs, -⟩ := hc
      have total : op.symbol ∈ totalSymbols := ht _ he
      cases op <;> simp [ArithmeticOp.symbol, totalSymbols] at hs total
    | callOnNullish method _ | unknownMethod method _ | invalidArgument method _ =>
      obtain ⟨e, args, he⟩ := hc
      exact ht _ he
    | notIterable found =>
      obtain ⟨⟨x, e, body, hs⟩, -⟩ := hc
      exact h _ hs
    | invalidAssignment path _ =>
      obtain ⟨place, e, hs, -⟩ := hc
      exact h _ hs
    | invalidUpdate op name found =>
      obtain ⟨⟨x, he, -⟩, -⟩ := hc
      exact ht _ he
    | iterationLimit bound =>
      obtain ⟨-, step, hs, hr⟩ := hc
      have total := h step hs
      cases step <;> simp_all [Step.HasRounds, Step.Total]

end Plain

/--
A render that fails has a cause in its program. An operator was `-`, `*`, `/` or `%` between, or `-` or `+` before,
an array or an object; a method that failed is called; what cannot be gone through is a boolean or a number, in an
`each` step; a failed assignment is a store to the place; a failed update is one of that variable, which held an
array or an object; and the limit of the options was exceeded in a program with loops. Nothing else ends a render
before its end, given enough rounds for its `loop` steps. So plain templates never fail.
-/
theorem render_error_has_cause :
    (∀ program : Program, program.InRange → ∀ options rounds model halt,
      program.render options rounds model = .error halt →
      (∃ fault, halt = .fault fault ∧ fault.HasCause options.iterationLimit program) ∨
        halt = .exhausted ∧ ∃ step ∈ program.steps, step.IsLoop) ∧
    ∀ segments program, Segment.PlainAll segments → (compile segments).result = .ok program →
      ∀ options rounds model, ∃ text, program.render options rounds model = .ok text := by
  constructor
  · intro program hin options rounds model halt h
    have hc := Program.render_caused h
    cases halt with
    | fault f => exact .inl ⟨f, rfl, hc⟩
    | missingSlot slot => exact (Program.render_found hin options rounds model slot h).elim
    | exhausted => exact .inr ⟨rfl, hc⟩
  · intro segments program hp h options rounds model
    cases hr : program.render options rounds model with
    | ok text => exact ⟨text, rfl⟩
    | error halt =>
      obtain ⟨slot, rfl⟩ := Halt.missing_of_total (compile_total hp h) (Program.render_caused hr)
      exact (Program.render_found (compile_inRange h) options rounds model slot hr).elim

/-- Negates what it goes through. -/
def negatesItems : Program :=
  ⟨.mk [] [.each ⟨0, "x"⟩ (.model "items") (.mk [] [.emit (.unary .negate (.variable ⟨0, "x"⟩))])], 1⟩

/-- Text, an attribute that assigns, a conditional with logic and comparison, a switch and a label. -/
def plainTemplate : List Segment := [
  .element "a" [.valued "b" [.statement (.assign (.name "x") (.binary "+" (.name "items") (.literal "1")))]] "" false [
    .statement (.choose (.unary "!" (.member (.name "x") "length"))
      [.expr (.conditional (.binary "??" (.name "x") (.name "y")) (.index (.name "model") (.name "x")) (.literal "2"))]
      [.statement (.switch (.binary "<" (.name "x") (.name "y")) [.statement (.label "case" (some (.name "z")))])])]]

theorem render_error_has_cause_examples :
    (negatesItems.InRange ∧
      negatesItems.render ⟨"", none⟩ 0 (.object [("items", .array [.null, .array []])]) =
        .error (.fault (.unaryOperand .negate .array)) ∧
      Fault.HasCause none negatesItems (.unaryOperand .negate .array)) ∧
    ∃ program, Segment.PlainAll plainTemplate ∧ (compile plainTemplate).result = .ok program ∧
      ∀ model, ∃ text, program.render ⟨"", some 0⟩ 0 model = .ok text := by
  constructor
  · have hin : negatesItems.InRange := by
      simp [Program.InRange, Block.InRange, negatesItems, Block.Every, Step.EveryAll, Step.Every, Term.InRange,
        Term.Every]
    have hr : negatesItems.render ⟨"", none⟩ 0 (.object [("items", .array [.null, .array []])]) =
        .error (.fault (.unaryOperand .negate .array)) := rfl
    refine ⟨hin, hr, ?_⟩
    rcases render_error_has_cause.1 _ hin _ _ _ _ hr with ⟨fault, heq, hc⟩ | ⟨heq, -⟩
    · cases heq
      exact hc
    · cases heq
  · have hsym : operatorSymbol "+" = "+" ∧ operatorSymbol "!" = "!" ∧ operatorSymbol "??" = "??" ∧
        operatorSymbol "<" = "<" := by decide
    have hp : Segment.PlainAll plainTemplate := by
      simp [plainTemplate, Segment.PlainAll, Segment.Plain, Attribute.PlainAll, Attribute.Plain, Statement.Plain,
        Expr.Plain, totalSymbols, hsym]
    exact ⟨_, hp, rfl, render_error_has_cause.2 _ _ hp rfl _ _⟩

end Stencil
