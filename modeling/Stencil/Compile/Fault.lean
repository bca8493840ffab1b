import Stencil.Literal
/-!
# Faults of a template
-/

namespace Stencil

/-- Why a part of a template cannot be compiled. -/
inductive SegmentProblem where
  | literal (fault : LiteralFault)
  | identifier (name : String)
  | markupName (name : String)
  | tagSpace
  | unaryOperator (operator : String)
  | binaryOperator (operator : String)
  | notLocal (name : String)
  | updateOperand
  | assignThrough (expr : String)
  | blankLabel
  | increment
deriving DecidableEq

/-- A part of a template, by its surface text, and what is wrong with it. -/
structure SegmentFault where
  segment : String
  problem : SegmentProblem
deriving DecidableEq

def SegmentProblem.message : SegmentProblem → String
  | .literal fault => fault.message
  | .identifier name => "`" ++ name ++ "` is not a valid identifier"
  | .markupName name => "`" ++ name ++ "` is not a valid markup name"
  | .tagSpace => "trailing tag whitespace must be whitespace"
  | .unaryOperator operator => "unsupported unary operator `" ++ operator ++ "`"
  | .binaryOperator operator => "unsupported binary operator `" ++ operator ++ "`"
  | .notLocal name => "`" ++ name ++ "` is not a local variable"
  | .updateOperand => "the operand of `++` and `--` must be a local variable"
  | .assignThrough expr =>
    "cannot assign through `" ++ expr ++ "`; only member chains are assignable"
  | .blankLabel => "a label needs a name"
  | .increment => "a loop increment must be an expression or a statement"

def SegmentFault.message (fault : SegmentFault) : String :=
  "Invalid segment `" ++ fault.segment ++ "`: " ++ fault.problem.message

end Stencil
