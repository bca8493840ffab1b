import Stencil.Compile.Expr
import Stencil.Machine.Run
/-!
# Rendering by name

A template is rendered here as it stands, without slots: local variables live in frames of names and
values that are pushed and popped while it runs. A bare name is looked up from the innermost frame
outwards and then in the model; a bare assignment rebinds what it finds or adds to the top frame. Parts
that do not compile have no meaning of their own and count as undefined.

A loop's increment may be the first to assign a name. `LoopRule` says where such a late name is visible.
-/

namespace Stencil

namespace Direct

/-! ## Frames -/

/-- Names and their values, the newest first. -/
abbrev Frame := List (String × Value)

/-- The open frames, innermost first. -/
abbrev Frames := List Frame

/-- The value of the innermost binding of the name. -/
def Frames.value? (frames : Frames) (x : String) : Option Value := frames.findSome? (·.lookup x)

def Frame.rebind (x : String) (v : Value) : Frame → Frame
  | [] => []
  | (y, w) :: rest => if y = x then (y, v) :: rest else (y, w) :: Frame.rebind x v rest

/-- Gives the innermost binding of the name another value. -/
def Frames.rebind (x : String) (v : Value) : Frames → Frames
  | [] => []
  | frame :: outer =>
    if (frame.lookup x).isSome then Frame.rebind x v frame :: outer
    else frame :: Frames.rebind x v outer

/-- A new binding in the top frame. -/
def Frames.bind (x : String) (v : Value) : Frames → Frames
  | [] => [[(x, v)]]
  | frame :: outer => ((x, v) :: frame) :: outer

/-- Rebinds the name where it is visible, else binds it in the top frame. -/
def Frames.assign (x : String) (v : Value) (frames : Frames) : Frames :=
  if (Frames.value? frames x).isSome then Frames.rebind x v frames else Frames.bind x v frames

/-! ## Runs -/

/-- A run that sees and changes frames only. -/
abbrev Eval := EStateM Halt Frames

def Eval.ofExcept {α : Type} : Except Fault α → Eval α
  | .ok a => pure a
  | .error f => throw (.fault f)

/-- The value of a bare name. -/
def Eval.read (model : Value) (x : String) : Eval Value := fun frames =>
  .ok ((Frames.value? frames x).getD (modelField model x)) frames

/-- Updates the innermost binding of the name and gives its new value. -/
def Eval.update (op : UpdateOp) (x : String) : Eval Value := fun frames =>
  match Frames.value? frames x with
  | some v =>
    match op.apply? v with
    | some w => .ok w (Frames.rebind x w frames)
    | none => .error (.fault (.invalidUpdate op x v.kind)) frames
  | none => .ok .undefined frames

structure State where
  frames : Frames
  model : Value
  output : String
  iterations : Nat

abbrev Exec := EStateM Halt State

namespace Exec

variable {α : Type}

def eval (run : Value → Eval α) : Exec α := fun state =>
  match run state.model state.frames with
  | .ok a frames => .ok a { state with frames }
  | .error halt frames => .error halt { state with frames }

def ofExcept : Except Fault α → Exec α
  | .ok a => pure a
  | .error f => throw (.fault f)

def write (s : String) : Exec Unit := modify fun state => { state with output := state.output ++ s }

def bind (x : String) (v : Value) : Exec Unit :=
  modify fun state => { state with frames := Frames.bind x v state.frames }

def assign (x : String) (v : Value) : Exec Unit :=
  modify fun state => { state with frames := Frames.assign x v state.frames }

def push (frame : Frame) : Exec Unit := modify fun state => { state with frames := frame :: state.frames }

def pop : Exec Unit := modify fun state => { state with frames := state.frames.tail }

/-- Runs in a frame of its own, which is gone afterwards. -/
def inFrame (frame : Frame) (run : Exec Unit) : Exec Unit := do
  push frame
  run
  pop

/-- Counts one round of a loop. -/
def tick (limit : Option UInt64) : Exec Unit := fun state =>
  let counted := { state with iterations := state.iterations + 1 }
  match limit with
  | some limit =>
    if counted.iterations ≤ limit.toNat then .ok () counted else .error (.fault (.iterationLimit limit)) counted
  | none => .ok () counted

/-- Goes on while `test` holds, for fewer than `rounds` rounds. -/
def loop (test : Exec Bool) (round : Exec Unit) : (rounds : Nat) → Exec Unit
  | 0 => throw .exhausted
  | rounds + 1 => do
    if ← test then
      round
      loop test round rounds

/-- Stores at the end of the path that starts from the visible binding of `root`, or from the model. -/
def store (root : String) (path : List String) (v : Value) : Exec Unit := fun state =>
  let failed (start : String) (fault : PlaceFault) : Halt :=
    .fault (.invalidAssignment (".".intercalate (start :: path)) fault)
  match Frames.value? state.frames root with
  | some target =>
    match v.store path target with
    | .ok updated => .ok () { state with frames := Frames.rebind root updated state.frames }
    | .error fault => .error (failed root fault) state
  | none =>
    match storeModel v root path state.model with
    | .ok updated => .ok () { state with model := updated }
    | .error fault => .error (failed ("$" ++ root) fault) state

end Exec

/-! ## Late names -/

/-- Where the name is visible that a loop's increment is the first to assign. -/
inductive LoopRule where
  /-- From the first increment on, like any assigned name: in conditions, bodies and increments. -/
  | dynamic
  /-- In the body alone, and there from the first round on, when it is still undefined. -/
  | lexical
deriving DecidableEq

/-- The late name of an increment and the value it is assigned, where the rule treats late names apart. -/
def LoopRule.late? (rule : LoopRule) (increment : Segment) : Exec (Option (String × Expr)) := fun state =>
  match rule, increment with
  | .lexical, .statement (.assign (.name x) value) =>
    .ok (if (Frames.value? state.frames x).isSome then none else some (x, value)) state
  | _, _ => .ok none state

/-- Runs without the newest binding of the top frame, which comes back afterwards. -/
def Eval.hiding {α : Type} (run : Eval α) : Eval α := fun frames =>
  match frames with
  | (hidden :: frame) :: outer =>
    match run (frame :: outer) with
    | .ok a frames => .ok a (Frames.bind hidden.1 hidden.2 frames)
    | .error halt frames => .error halt frames
  | _ => run frames

end Direct

/-! ## Expressions -/

mutual

def Expr.direct (model : Value) : Expr → Direct.Eval Value
  | .literal token =>
    match Literal.decode token with
    | .ok v => pure v
    | .error _ => pure .undefined
  | .name x => Direct.Eval.read model x
  | .member target x => return (← target.direct model).member x
  | .index target position => return (← target.direct model).index (← position.direct model)
  | .call target method args => do
    let v ← target.direct model
    let vs ← Expr.directArgs model args
    Direct.Eval.ofExcept (callMethod v method vs)
  | .unary operator operand =>
    match PrefixOp.ofSymbol? (operatorSymbol operator) with
    | some (.unary op) => do Direct.Eval.ofExcept (op.apply (← operand.direct model))
    | some (.update op) =>
      match operand with
      | .name x => Direct.Eval.update op x
      | _ => pure .undefined
    | none => pure .undefined
  | .binary operator left right =>
    match BinaryOp.ofSymbol? (operatorSymbol operator) with
    | some op => do
      let v ← left.direct model
      if op.isShortCircuit && !op.needsRight v then
        return v
      Direct.Eval.ofExcept (op.apply v (← right.direct model))
    | none => pure .undefined
  | .conditional condition ifTrue ifFalse => do
    if (← condition.direct model).isTruthy then ifTrue.direct model else ifFalse.direct model

def Expr.directArgs (model : Value) : List Expr → Direct.Eval (List Value)
  | [] => pure []
  | e :: rest => return (← e.direct model) :: (← Expr.directArgs model rest)

end

/-- The value of an expression in a run of the template. -/
def Expr.runDirect (e : Expr) : Direct.Exec Value := Direct.Exec.eval e.direct

/-- The same out of sight of a late name. -/
def Expr.runHiding (e : Expr) : Direct.Exec Value :=
  Direct.Exec.eval fun model => Direct.Eval.hiding (e.direct model)

/-! ## Statements and segments -/

open Direct.Exec in
mutual

/-- A statement; a bare assignment that is `fresh` always makes a new binding. -/
def Statement.direct (rule : Direct.LoopRule) (options : Options) (rounds : Nat) (fresh : Bool) :
    Statement → Direct.Exec Unit
  | .assign (.name x) value => do
    let v ← value.runDirect
    if fresh then bind x v else assign x v
  | .assign (.member parent x) value => do
    let v ← value.runDirect
    match (Expr.member parent x).chain with
    | .ok (root, path) => store root path v
    | .error _ => pure ()
  | .when condition body => do
    if (← condition.runDirect).isTruthy then inFrame [] (Segment.directAll rule options rounds body)
  | .choose condition body otherwise => do
    if (← condition.runDirect).isTruthy then inFrame [] (Segment.directAll rule options rounds body)
    else inFrame [] (Segment.directAll rule options rounds otherwise)
  | .loop initial condition increment body =>
    inFrame [] do
      initial.direct rule options rounds true
      let test (run : Expr → Direct.Exec Value) : Direct.Exec Bool := return (← run condition).isTruthy
      let round (update : Direct.Exec Unit) : Direct.Exec Unit := do
        tick options.iterationLimit
        inFrame [] (Segment.directAll rule options rounds body)
        update
      match ← rule.late? increment with
      | some (x, value) => do
        -- bound before the first round, but neither the condition nor the update reads it
        bind x .undefined
        loop (test Expr.runHiding) (round do assign x (← value.runHiding)) rounds
      | none =>
        match increment with
        | .expr e => loop (test Expr.runDirect) (round do discard e.runDirect) rounds
        | .statement s => loop (test Expr.runDirect) (round (s.direct rule options rounds false)) rounds
        | _ => pure ()
  | .each x collection body => do
    let items ← ofExcept (← collection.runDirect).items
    items.forM fun item => do
      tick options.iterationLimit
      inFrame [(x, item)] (inFrame [] (Segment.directAll rule options rounds body))
  | .switch subject body => do
    discard subject.runDirect
    inFrame [] (Segment.directAll rule options rounds body)
  | .label _ guard =>
    match guard with
    | some e => discard e.runDirect
    | none => pure ()

def Segment.direct (rule : Direct.LoopRule) (options : Options) (rounds : Nat) : Segment → Direct.Exec Unit
  | .text s => write s
  | .expr e => do write (options.textOf (← e.runDirect))
  | .statement s => s.direct rule options rounds false
  | .block body => inFrame [] (Segment.directAll rule options rounds body)
  | .element name attributes space selfClosing children => do
    write ("<" ++ name)
    Attribute.directAll rule options rounds attributes
    write space
    if selfClosing then
      write "/>"
    else
      write ">"
      Segment.directAll rule options rounds children
      write ("</" ++ name ++ ">")

def Segment.directAll (rule : Direct.LoopRule) (options : Options) (rounds : Nat) :
    List Segment → Direct.Exec Unit
  | [] => pure ()
  | s :: rest => do
    s.direct rule options rounds
    Segment.directAll rule options rounds rest

def Attribute.direct (rule : Direct.LoopRule) (options : Options) (rounds : Nat) :
    Attribute → Direct.Exec Unit
  | .flag name => write (" " ++ name)
  | .valued name value => do
    write (" " ++ name ++ "=\"")
    Segment.directAll rule options rounds value
    write "\""

def Attribute.directAll (rule : Direct.LoopRule) (options : Options) (rounds : Nat) :
    List Attribute → Direct.Exec Unit
  | [] => pure ()
  | a :: rest => do
    a.direct rule options rounds
    Attribute.directAll rule options rounds rest

end

/-- The text that a template makes of a model, rendered by name. -/
def renderDirect (rule : Direct.LoopRule) (segments : List Segment) (options : Options) (rounds : Nat)
    (model : Value) : Except Halt String :=
  match Direct.Exec.inFrame [] (Segment.directAll rule options rounds segments) ⟨[], model, "", 0⟩ with
  | .ok _ state => .ok state.output
  | .error halt _ => .error halt

end Stencil
