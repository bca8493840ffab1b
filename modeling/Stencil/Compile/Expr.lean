import Stencil.Compile.Traced
import Stencil.Program.Basic
import Stencil.Template.Printer
/-!
# Compiling expressions

The scope decides what a bare name is; compiling an expression does not change it. Checks come in the
order in which the parts stand, a name before the expression it belongs to.
-/

namespace Stencil

open Traced

def checkIdentifier (name segment : String) : Traced Unit :=
  if isIdentifier name then pure () else fail segment (.identifier name)

/-- An operator token without the white space around it. -/
def operatorSymbol (token : String) : String := .ofList (Text.trim token.toList)

/-- The local variable that an update operator in `expr` changes. -/
def updateTarget (scope : Scope) (expr : Expr) : Expr → Traced Local
  | .name x => do
    checkIdentifier x x
    match ← lookup scope x with
    | some y => pure y
    | none => fail expr.surface (.notLocal x)
  | _ => fail expr.surface .updateOperand

mutual

def Expr.compile (scope : Scope) : Expr → Traced Term
  | .literal token =>
    match Literal.decode token with
    | .ok v => pure (.const v)
    | .error fault => fail token (.literal fault)
  | .name x => do
    checkIdentifier x x
    match ← lookup scope x with
    | some y => pure (.variable y)
    | none => pure (.model x)
  | .member target x => do
    checkIdentifier x (Expr.member target x).surface
    return .member (← target.compile scope) x
  | .index target position => return .index (← target.compile scope) (← position.compile scope)
  | .call target method args => do
    checkIdentifier method (Expr.call target method args).surface
    return .call (← target.compile scope) method (← Expr.compileArgs scope args)
  | .unary operator operand =>
    match PrefixOp.ofSymbol? (operatorSymbol operator) with
    | some (.unary op) => return .unary op (← operand.compile scope)
    | some (.update op) =>
      return .update op (← updateTarget scope (.unary operator operand) operand)
    | none => fail (Expr.unary operator operand).surface (.unaryOperator operator)
  | .binary operator left right =>
    match BinaryOp.ofSymbol? (operatorSymbol operator) with
    | some op => return .binary op (← left.compile scope) (← right.compile scope)
    | none => fail (Expr.binary operator left right).surface (.binaryOperator operator)
  | .conditional condition ifTrue ifFalse =>
    return .conditional (← condition.compile scope) (← ifTrue.compile scope)
      (← ifFalse.compile scope)

def Expr.compileArgs (scope : Scope) : List Expr → Traced (List Term)
  | [] => pure []
  | e :: rest => return (← e.compile scope) :: (← Expr.compileArgs scope rest)

end

/-! ## Member chains -/

/-- The root of a member chain and the names that follow it, or the part that breaks the chain. -/
def Expr.chain : Expr → Except Expr (String × List String)
  | .name x => .ok (x, [])
  | .member target x => do
    let (root, path) ← target.chain
    return (root, path ++ [x])
  | e => .error e

def checkIdentifiers (segment : String) : List String → Traced Unit
  | [] => pure ()
  | name :: rest => do
    checkIdentifier name segment
    checkIdentifiers segment rest

/-- What a chain starts from. -/
def compileRoot (scope : Scope) (name : String) : Traced Root := do
  match ← lookup scope name with
  | some x => pure (.variable x)
  | none => pure (.model name)

/-- The place of the member `x` of `target`; its names are checked from the last to the first. -/
def compilePlace (scope : Scope) (target : Expr) (x : String) : Traced Place := do
  let access := Expr.member target x
  match access.chain with
  | .ok (root, path) => do
    checkIdentifiers access.surface (root :: path).reverse
    return ⟨← compileRoot scope root, path⟩
  | .error e => fail access.surface (.assignThrough e.surface)

end Stencil
