import Stencil.Fault
import Stencil.Value.Compare
import Stencil.Value.Text
/-!
# What operators compute

Arithmetic on two integers is exact as long as the result is a 64-bit integer. Otherwise, and on all
other primitive values, it is arithmetic on doubles; arrays and objects have none.
-/

namespace Stencil

/-! ## Arithmetic -/

namespace ArithmeticOp

/--
The exact result on integers, if it is a 64-bit integer. A quotient has to be whole; a remainder needs
its quotient, cut to a whole number, to be a 64-bit integer too.
-/
def integer? (op : ArithmeticOp) (l r : Int64) : Option Int64 :=
  match op with
  | .add => int64? (l.toInt + r.toInt)
  | .subtract => int64? (l.toInt - r.toInt)
  | .multiply => int64? (l.toInt * r.toInt)
  | .divide =>
    if r = 0 ∨ l.toInt.tmod r.toInt ≠ 0 then none else int64? (l.toInt.tdiv r.toInt)
  | .remainder =>
    if r = 0 ∨ int64? (l.toInt.tdiv r.toInt) = none then none else int64? (l.toInt.tmod r.toInt)

def real : ArithmeticOp → Binary64 → Binary64 → Binary64
  | .add => .add
  | .subtract => .sub
  | .multiply => .mul
  | .divide => .div
  | .remainder => .rem

/-- On doubles, after both operands took their numeric form. -/
def coerced? (op : ArithmeticOp) (l r : Value) : Option Value := do
  return .real (op.real (← l.toNumber?) (← r.toNumber?))

def compute? (op : ArithmeticOp) : Value → Value → Option Value
  | .integer l, .integer r =>
    match op.integer? l r with
    | some n => some (.integer n)
    | none => op.coerced? (.integer l) (.integer r)
  | l, r => op.coerced? l r

end ArithmeticOp

/-- Whether `+` with this operand joins texts. -/
def Value.isJoined : Value → Bool
  | .string _ | .array _ | .object _ => true
  | _ => false

def ArithmeticOp.apply (op : ArithmeticOp) (l r : Value) : Except Fault Value :=
  if op = .add ∧ (l.isJoined || r.isJoined) then
    .ok (.string (l.text ++ r.text))
  else
    match op.compute? l r with
    | some v => .ok v
    | none => .error (.arithmeticOperands op l.kind r.kind)

/-! ## Comparison and logic -/

def EqualityOp.test (l r : Value) : EqualityOp → Bool
  | .equal => l.looseEq r
  | .notEqual => !l.looseEq r
  | .strictEqual => l.strictEq r
  | .strictNotEqual => !l.strictEq r

/-- Values without an order stand in no relation. -/
def OrderOp.test (l r : Value) : OrderOp → Bool
  | .less => l.compare? r == some .lt
  | .lessOrEqual => l.compare? r == some .lt || l.compare? r == some .eq
  | .greater => l.compare? r == some .gt
  | .greaterOrEqual => l.compare? r == some .gt || l.compare? r == some .eq

/-- Whether the right operand decides, given the left one. -/
def LogicalOp.needsRight (left : Value) : LogicalOp → Bool
  | .and => left.isTruthy
  | .or => !left.isTruthy
  | .coalesce => left.isNullish

namespace BinaryOp

def isShortCircuit : BinaryOp → Bool
  | .logical _ => true
  | _ => false

def needsRight (left : Value) : BinaryOp → Bool
  | .logical op => op.needsRight left
  | _ => true

def apply (op : BinaryOp) (l r : Value) : Except Fault Value :=
  match op with
  | .arithmetic op => op.apply l r
  | .equality op => .ok (.bool (op.test l r))
  | .order op => .ok (.bool (op.test l r))
  | .logical op => .ok (if op.needsRight l then r else l)

end BinaryOp

/-! ## One operand -/

/-- Negation as a double, or the double itself. -/
def UnaryOp.coerced (op : UnaryOp) (v : Value) : Except Fault Value :=
  match v.toNumber? with
  | some x => .ok (.real (if op = .negate then x.neg else x))
  | none => .error (.unaryOperand op v.kind)

def UnaryOp.apply (op : UnaryOp) (v : Value) : Except Fault Value :=
  match op, v with
  | .not, v => .ok (.bool !v.isTruthy)
  | .negate, .integer n =>
    match int64? (-n.toInt) with
    | some m => .ok (.integer m)
    | none => .ok (.real (Binary64.ofInt64 n).neg)
  | .plus, .integer n => .ok (.integer n)
  | .plus, .real x => .ok (.real x)
  | op, v => op.coerced v

def UpdateOp.delta : UpdateOp → Int
  | .increment => 1
  | .decrement => -1

/-- One more or one less; arrays and objects have neither. -/
def UpdateOp.apply? (op : UpdateOp) : Value → Option Value
  | .integer n =>
    match int64? (n.toInt + op.delta) with
    | some m => some (.integer m)
    | none => some (.real ((Binary64.ofInt64 n).add (.ofInt op.delta)))
  | v => v.toNumber?.map fun x => .real (x.add (.ofInt op.delta))

end Stencil
