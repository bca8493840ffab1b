import Stencil.Fault
import Stencil.Place
import Stencil.Value.Access
/-!
# The state of a render

The machine holds the local slots, the render's own copy of the model, the text written so far and the
number of loop rounds. Expressions see the model and change at most slots, so they run on the slots
alone.
-/

namespace Stencil

/-- Why a run stops before its end. -/
inductive Halt where
  | fault (f : Fault)
  /-- A slot beyond those of the program; compiled templates have none. -/
  | missingSlot (slot : Nat)
  /-- A loop has used up the rounds it was given. -/
  | exhausted
deriving DecidableEq

/-! ## Slots -/

/-- The values of the local slots. -/
abbrev Slots := Array Value

/-- A run that sees and changes slots only. -/
abbrev Eval := EStateM Halt Slots

namespace Eval

def get (slot : Nat) : Eval Value := fun slots =>
  match slots[slot]? with
  | some v => .ok v slots
  | none => .error (.missingSlot slot) slots

def set (slot : Nat) (v : Value) : Eval Unit := fun slots =>
  if slot < slots.size then .ok () (slots.setIfInBounds slot v) else .error (.missingSlot slot) slots

def reset : List Nat → Eval Unit
  | [] => pure ()
  | slot :: rest => do
    set slot .undefined
    reset rest

def ofExcept {α : Type} : Except Fault α → Eval α
  | .ok a => pure a
  | .error f => throw (.fault f)

end Eval

/-! ## The model -/

/-- The name under which a template sees its whole model. -/
def modelName : String := "model"

/-- What a name of the model stands for: the model itself, or a field of it. -/
def resolveModel? (model : Value) (name : String) : Option Value :=
  if name = modelName then some model
  else
    match model with
    | .object fields => Fields.get? name fields
    | _ => none

def modelField (model : Value) (name : String) : Value := (resolveModel? model name).getD .undefined

/-! ## Assigning members -/

/-- `target` with `v` at the end of the path. All but the last name have to be there already. -/
def Value.store (v : Value) : List String → Value → Except PlaceFault Value
  | [], _ => .ok v
  | [last], .object fields => .ok (.object (Fields.insert last v fields))
  | [last], target => .error (.notWritable last target.kind)
  | name :: path, .object fields =>
    match Fields.get? name fields with
    | some inner => do return .object (Fields.insert name (← Value.store v path inner) fields)
    | none => .error (.absent name)
  | name :: _, target => .error (.notReadable name target.kind)

/-- The model with `v` at the end of the path from one of its names. -/
def storeModel (v : Value) (name : String) (path : List String) (model : Value) :
    Except PlaceFault Value :=
  if name = modelName then v.store path model
  else
    match model with
    | .object fields => do
      let inner := (Fields.get? name fields).getD .undefined
      return .object (Fields.insert name (← v.store path inner) fields)
    | _ => .error (.notWritable name model.kind)

/-! ## The machine -/

structure Machine where
  slots : Slots
  model : Value
  output : String
  iterations : Nat

/-- A run of the whole machine. -/
abbrev Exec := EStateM Halt Machine

namespace Exec

variable {α : Type}

/-- Runs what needs the model and the slots only. -/
def eval (run : Value → Eval α) : Exec α := fun machine =>
  match run machine.model machine.slots with
  | .ok a slots => .ok a { machine with slots }
  | .error halt slots => .error halt { machine with slots }

def ofExcept : Except Fault α → Exec α
  | .ok a => pure a
  | .error f => throw (.fault f)

def write (s : String) : Exec Unit :=
  modify fun machine => { machine with output := machine.output ++ s }

/-- Counts one round of a loop. -/
def tick (limit : Option UInt64) : Exec Unit := do
  modify fun machine => { machine with iterations := machine.iterations + 1 }
  match limit with
  | some limit => if limit.toNat < (← get).iterations then throw (.fault (.iterationLimit limit))
  | none => pure ()

def store (place : Place) (v : Value) : Exec Unit := do
  let check (result : Except PlaceFault Value) : Exec Value :=
    match result with
    | .ok updated => pure updated
    | .error fault => throw (.fault (.invalidAssignment place.text fault))
  match place.root with
  | .variable x => do
    let target ← eval fun _ => Eval.get x.slot
    let updated ← check (v.store place.path target)
    eval fun _ => Eval.set x.slot updated
  | .model name => do
    let updated ← check (storeModel v name place.path (← get).model)
    modify fun machine => { machine with model := updated }

/-- Goes on while `test` holds, for fewer than `rounds` rounds. -/
def loop (test : Exec Bool) (round : Exec Unit) : (rounds : Nat) → Exec Unit
  | 0 => throw .exhausted
  | rounds + 1 => do
    if ← test then
      round
      loop test round rounds

end Exec

end Stencil
