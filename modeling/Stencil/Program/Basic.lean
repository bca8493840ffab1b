import Stencil.Operator.Basic
import Stencil.Place
import Stencil.Value.Basic
/-!
# Render programs

A program is a tree of steps in which every name is already a local slot or a field of the model.
-/

namespace Stencil

/-- An expression whose names are resolved. -/
inductive Term where
  | const (v : Value)
  | variable (x : Local)
  | model (name : String)
  | member (target : Term) (name : String)
  | index (target position : Term)
  | call (target : Term) (method : String) (args : List Term)
  | unary (op : UnaryOp) (operand : Term)
  | update (op : UpdateOp) (x : Local)
  | binary (op : BinaryOp) (left right : Term)
  | conditional (condition ifTrue ifFalse : Term)

mutual

inductive Step where
  | write (s : String)
  | emit (e : Term)
  | declare (x : Local) (e : Term)
  | assign (x : Local) (e : Term)
  | store (place : Place) (e : Term)
  | eval (e : Term)
  | block (body : Block)
  | when (condition : Term) (body : Block)
  | choose (condition : Term) (body otherwise : Block)
  | loop (locals : List Nat) (initial : Step) (condition : Term) (update : Step) (body : Block)
  | each (x : Local) (collection : Term) (body : Block)
  | switch (subject : Term) (body : Block)
  | label (name : String) (guard : Option Term)

/-- Steps with the slots that are reset whenever they are entered. -/
inductive Block where
  | mk (locals : List Nat) (steps : List Step)

end

def Block.locals : Block → List Nat
  | .mk locals _ => locals

def Block.steps : Block → List Step
  | .mk _ steps => steps

structure Program where
  body : Block
  slots : Nat

end Stencil
