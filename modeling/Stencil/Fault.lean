import Stencil.Number.Digits
import Stencil.Operator.Basic
import Stencil.Value.Basic
/-!
# Faults of a render

The ways in which a render can fail, with their messages.
-/

namespace Stencil

/-- What is wrong with an argument of a method. -/
inductive ArgumentFault where
  | missing (position : Nat)
  | notString (found : Kind)
  | notNumber (found : Kind)
  | digitsOutOfRange (digits : Int64)
deriving DecidableEq

/-- What is wrong with the target of a member assignment. -/
inductive PlaceFault where
  | absent (name : String)
  | notReadable (name : String) (found : Kind)
  | notWritable (name : String) (found : Kind)
deriving DecidableEq

inductive Fault where
  | unaryOperand (op : UnaryOp) (operand : Kind)
  | arithmeticOperands (op : ArithmeticOp) (left right : Kind)
  | callOnNullish (method : String) (target : Kind)
  | unknownMethod (method : String) (target : Kind)
  | invalidArgument (method : String) (fault : ArgumentFault)
  | notIterable (found : Kind)
  | invalidAssignment (path : String) (fault : PlaceFault)
  | invalidUpdate (op : UpdateOp) (name : String) (found : Kind)
  | iterationLimit (limit : UInt64)
deriving DecidableEq

def ArgumentFault.message : ArgumentFault → String
  | .missing position => "missing argument " ++ integerText position
  | .notString found => "expected a string, found " ++ found.text
  | .notNumber found => "expected a number, found " ++ found.text
  | .digitsOutOfRange digits =>
    "digits must be between 0 and 100, found " ++ integerText digits.toInt

def PlaceFault.message : PlaceFault → String
  | .absent name => "`" ++ name ++ "` is undefined"
  | .notReadable name found => "cannot read `" ++ name ++ "` of " ++ found.text
  | .notWritable name found => "cannot set `" ++ name ++ "` on " ++ found.text

def Fault.message : Fault → String
  | .unaryOperand op operand =>
    "Cannot apply `" ++ op.symbol ++ "` to " ++ operand.text ++ " and nothing"
  | .arithmeticOperands op left right =>
    "Cannot apply `" ++ op.symbol ++ "` to " ++ left.text ++ " and " ++ right.text
  | .callOnNullish method target => "Cannot call `" ++ method ++ "` on " ++ target.text
  | .unknownMethod method target => target.text ++ " has no method `" ++ method ++ "`"
  | .invalidArgument method fault => "Invalid argument to `" ++ method ++ "`: " ++ fault.message
  | .notIterable found => "Cannot iterate over " ++ found.text
  | .invalidAssignment path fault => "Cannot assign `" ++ path ++ "`: " ++ fault.message
  | .invalidUpdate op name found =>
    "Cannot apply `" ++ op.symbol ++ "` to `" ++ name ++ "` holding " ++ found.text
  | .iterationLimit limit =>
    "Render exceeded the limit of " ++ integerText limit.toNat ++ " loop iterations"

end Stencil
