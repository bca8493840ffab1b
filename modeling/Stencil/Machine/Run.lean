import Stencil.Machine.Basic
import Stencil.Method
import Stencil.Operator.Apply
import Stencil.Options
import Stencil.Program.Basic
/-!
# Running programs

Terms, steps and blocks run by recursion on themselves. Only a `loop` step can go on without end, so a
run is given a number of rounds that no single loop may reach; more rounds do not change a run that
comes to its end.
-/

namespace Stencil

mutual

/-- The value of a term, given the model. -/
def Term.eval (model : Value) : Term → Eval Value
  | .const v => pure v
  | .variable x => Eval.get x.slot
  | .model name => pure (modelField model name)
  | .member target name => return (← target.eval model).member name
  | .index target position => return (← target.eval model).index (← position.eval model)
  | .call target method args => do
    let v ← target.eval model
    let vs ← Term.evalArgs model args
    Eval.ofExcept (callMethod v method vs)
  | .unary op operand => do Eval.ofExcept (op.apply (← operand.eval model))
  | .update op x => do
    let v ← Eval.get x.slot
    match op.apply? v with
    | some w => do
      Eval.set x.slot w
      return w
    | none => throw (.fault (.invalidUpdate op x.name v.kind))
  | .binary op left right => do
    let v ← left.eval model
    if op.isShortCircuit && !op.needsRight v then
      return v
    Eval.ofExcept (op.apply v (← right.eval model))
  | .conditional condition ifTrue ifFalse => do
    if (← condition.eval model).isTruthy then ifTrue.eval model else ifFalse.eval model

def Term.evalArgs (model : Value) : List Term → Eval (List Value)
  | [] => pure []
  | e :: rest => return (← e.eval model) :: (← Term.evalArgs model rest)

end

/-- What `each` goes through: items, field values in key order, characters; nothing for missing data. -/
def Value.items : Value → Except Fault (List Value)
  | .undefined | .null => .ok []
  | .array items => .ok items
  | .object fields => .ok (fields.map Prod.snd)
  | .string s => .ok (s.toList.map fun c => .ofChars [c])
  | v => .error (.notIterable v.kind)

/-- The value of a term in a run of the machine. -/
def Term.run (e : Term) : Exec Value := Exec.eval e.eval

mutual

def Step.run (options : Options) (rounds : Nat) : Step → Exec Unit
  | .write s => Exec.write s
  | .emit e => do Exec.write (options.textOf (← e.run))
  | .declare x e | .assign x e => do
    let v ← e.run
    Exec.eval fun _ => Eval.set x.slot v
  | .store place e => do Exec.store place (← e.run)
  | .eval e => do discard e.run
  | .block body => body.run options rounds
  | .when condition body => do
    if (← condition.run).isTruthy then body.run options rounds
  | .choose condition body otherwise => do
    if (← condition.run).isTruthy then body.run options rounds else otherwise.run options rounds
  | .loop locals initial condition update body => do
    Exec.eval fun _ => Eval.reset locals
    initial.run options rounds
    let test : Exec Bool := return (← condition.run).isTruthy
    let round : Exec Unit := do
      Exec.tick options.iterationLimit
      body.run options rounds
      update.run options rounds
    Exec.loop test round rounds
  | .each x collection body => do
    let items ← Exec.ofExcept (← collection.run).items
    items.forM fun item => do
      Exec.tick options.iterationLimit
      Exec.eval fun _ => Eval.set x.slot item
      body.run options rounds
  | .switch subject body => do
    discard subject.run
    body.run options rounds
  | .label _ guard =>
    match guard with
    | some e => discard e.run
    | none => pure ()

/-- Resets the block's slots, then runs its steps. -/
def Block.run (options : Options) (rounds : Nat) : Block → Exec Unit
  | .mk locals steps => do
    Exec.eval fun _ => Eval.reset locals
    Step.runAll options rounds steps

def Step.runAll (options : Options) (rounds : Nat) : List Step → Exec Unit
  | [] => pure ()
  | step :: rest => do
    step.run options rounds
    Step.runAll options rounds rest

end

/-- The machine at the start of a render. -/
def Program.start (program : Program) (model : Value) : Machine :=
  ⟨Array.replicate program.slots .undefined, model, "", 0⟩

/-- The text that a program makes of a model. -/
def Program.render (program : Program) (options : Options) (rounds : Nat) (model : Value) :
    Except Halt String :=
  match program.body.run options rounds (program.start model) with
  | .ok _ machine => .ok machine.output
  | .error halt _ => .error halt

end Stencil
