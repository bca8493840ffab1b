import Stencil.Template.Basic
/-!
# The surface text of templates

The form in which messages show parts of a template. Binary and conditional operands are put in
parentheses.
-/

namespace Stencil

def parenthesise (compound : Bool) (text : String) : String :=
  if compound then "(" ++ text ++ ")" else text

namespace Expr

def isCompound : Expr → Bool
  | .binary .. | .conditional .. => true
  | _ => false

mutual

def surface : Expr → String
  | .literal token => token
  | .name x => x
  | .member target x => parenthesise target.isCompound target.surface ++ "." ++ x
  | .index target position =>
    parenthesise target.isCompound target.surface ++ "[" ++ position.surface ++ "]"
  | .call target method args =>
    parenthesise target.isCompound target.surface ++ "." ++ method ++ "("
      ++ ", ".intercalate (surfaceArgs args) ++ ")"
  | .unary operator operand => operator ++ parenthesise operand.isCompound operand.surface
  | .binary operator left right =>
    parenthesise left.isCompound left.surface ++ " " ++ operator ++ " "
      ++ parenthesise right.isCompound right.surface
  | .conditional condition ifTrue ifFalse =>
    parenthesise condition.isCompound condition.surface ++ " ? "
      ++ parenthesise ifTrue.isCompound ifTrue.surface ++ " : "
      ++ parenthesise ifFalse.isCompound ifFalse.surface

def surfaceArgs : List Expr → List String
  | [] => []
  | e :: rest => e.surface :: surfaceArgs rest

end

/-- The text as an operand. -/
def operandSurface (e : Expr) : String := parenthesise e.isCompound e.surface

end Expr

def Target.surface (target : Target) : String := target.expr.surface

/-- The texts of the segments of a block, in braces. -/
def inBraces (segments : List String) : String :=
  if segments.isEmpty then "\x7b\x7d" else "\x7b " ++ " ".intercalate segments ++ " \x7d"

mutual

def Statement.surface : Statement → String
  | .assign (.name x) value => "var " ++ x ++ " = " ++ value.surface
  | .assign target value => target.surface ++ " = " ++ value.surface
  | .when condition body => "if (" ++ condition.surface ++ ") " ++ inBraces (Segment.surfaces body)
  | .choose condition body otherwise =>
    "if (" ++ condition.surface ++ ") " ++ inBraces (Segment.surfaces body) ++ " else "
      ++ inBraces (Segment.surfaces otherwise)
  | .loop initial condition increment body =>
    let update := if let .expr e := increment then e.surface else increment.surface
    "for (" ++ initial.surface ++ "; " ++ condition.surface ++ "; " ++ update ++ ") "
      ++ inBraces (Segment.surfaces body)
  | .each x collection body =>
    "foreach (var " ++ x ++ " in " ++ collection.surface ++ ") " ++ inBraces (Segment.surfaces body)
  | .switch subject body => "switch (" ++ subject.surface ++ ") " ++ inBraces (Segment.surfaces body)
  | .label name (some guard) => name ++ " when " ++ guard.surface ++ ":"
  | .label name none => name ++ ":"

def Segment.surface : Segment → String
  | .text s => s
  | .expr e => "@" ++ e.operandSurface
  | .statement s => "@" ++ s.surface
  | .block body => "@" ++ inBraces (Segment.surfaces body)
  | .element name attributes space selfClosing children =>
    "<" ++ name ++ Attribute.surfaces attributes ++ space
      ++ if selfClosing then "/>"
        else ">" ++ String.join (Segment.surfaces children) ++ "</" ++ name ++ ">"

def Segment.surfaces : List Segment → List String
  | [] => []
  | segment :: rest => segment.surface :: Segment.surfaces rest

def Attribute.surface : Attribute → String
  | .flag name => name
  | .valued name value => name ++ "=\"" ++ String.join (Segment.surfaces value) ++ "\""

/-- Every attribute with a space in front. -/
def Attribute.surfaces : List Attribute → String
  | [] => ""
  | first :: rest => " " ++ first.surface ++ Attribute.surfaces rest

end

/-- The text of segments as a block. -/
def Segment.blockSurface (body : List Segment) : String := inBraces (Segment.surfaces body)

end Stencil
