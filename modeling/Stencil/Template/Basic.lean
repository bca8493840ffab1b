/-!
# Templates

A template is a list of segments: text, markup, expressions whose values are shown, statements and
blocks. Tokens of literals and operators are kept as they were written.
-/

namespace Stencil

/-- An expression. A bare `name` is a local variable or a field of the model. -/
inductive Expr where
  | literal (token : String)
  | name (x : String)
  | member (target : Expr) (x : String)
  | index (target position : Expr)
  | call (target : Expr) (method : String) (args : List Expr)
  | unary (operator : String) (operand : Expr)
  | binary (operator : String) (left right : Expr)
  | conditional (condition ifTrue ifFalse : Expr)
deriving Inhabited

/-- What can be assigned to. -/
inductive Target where
  | name (x : String)
  | member (target : Expr) (x : String)
deriving Inhabited

def Target.expr : Target → Expr
  | .name x => .name x
  | .member target x => .member target x

mutual

inductive Statement where
  | assign (target : Target) (value : Expr)
  | when (condition : Expr) (body : List Segment)
  | choose (condition : Expr) (body otherwise : List Segment)
  | loop (initial : Statement) (condition : Expr) (increment : Segment) (body : List Segment)
  | each (x : String) (collection : Expr) (body : List Segment)
  | switch (subject : Expr) (body : List Segment)
  | label (name : String) (guard : Option Expr)

/-- A segment; the children of a self-closing element are not part of its markup. -/
inductive Segment where
  | text (s : String)
  | expr (e : Expr)
  | statement (s : Statement)
  | block (body : List Segment)
  | element (name : String) (attributes : List Attribute) (space : String) (selfClosing : Bool)
      (children : List Segment)

inductive Attribute where
  | flag (name : String)
  | valued (name : String) (value : List Segment)

end

/-- Letters, digits, `_` and `$`, not starting with a digit. -/
def isIdentifier (name : String) : Bool :=
  match name.toList with
  | [] => false
  | c :: cs =>
    (c.isAlpha || c = '_' || c = '$') && cs.all fun c => c.isAlphanum || c = '_' || c = '$'

end Stencil
