import Stencil.Program.Basic
import Stencil.Template.Printer
import Stencil.Text.Quoted
import Stencil.Value.Text
/-!
# Listings of programs

One line for each step, two blanks for each level; a name of the model has a dollar sign in front.
-/

namespace Stencil

def Value.listing : Value → String
  | .undefined => "undefined"
  | .null => "null"
  | .string s => Text.quote s
  | v => v.text

namespace Term

def isCompound : Term → Bool
  | .binary .. | .conditional .. => true
  | _ => false

mutual

def listing : Term → String
  | .const v => v.listing
  | .variable x => x.name
  | .model name => "$" ++ name
  | .member target name => parenthesise target.isCompound target.listing ++ "." ++ name
  | .index target position =>
    parenthesise target.isCompound target.listing ++ "[" ++ position.listing ++ "]"
  | .call target method args =>
    parenthesise target.isCompound target.listing ++ "." ++ method ++ "("
      ++ ", ".intercalate (listingArgs args) ++ ")"
  | .unary op operand => op.symbol ++ parenthesise operand.isCompound operand.listing
  | .update op x => op.symbol ++ x.name
  | .binary op left right =>
    parenthesise left.isCompound left.listing ++ " " ++ op.symbol ++ " "
      ++ parenthesise right.isCompound right.listing
  | .conditional condition ifTrue ifFalse =>
    parenthesise condition.isCompound condition.listing ++ " ? "
      ++ parenthesise ifTrue.isCompound ifTrue.listing ++ " : "
      ++ parenthesise ifFalse.isCompound ifFalse.listing

def listingArgs : List Term → List String
  | [] => []
  | e :: rest => e.listing :: listingArgs rest

end

end Term

def indentation (depth : Nat) : String := .ofList (List.replicate (2 * depth) ' ')

/-- What stands for a body in the head of a loop. -/
def elision : String := " \x7b .. \x7d"

/-- A step on one line, as in the head of a loop. -/
def Step.inline : Step → String
  | .write s => "write " ++ Text.quote s
  | .emit e => "emit " ++ e.listing
  | .declare x e => "let " ++ x.name ++ " = " ++ e.listing
  | .assign x e => x.name ++ " = " ++ e.listing
  | .store place e => place.text ++ " = " ++ e.listing
  | .eval e => e.listing
  | .block _ => "\x7b .. \x7d"
  | .when condition _ | .choose condition _ _ => "if (" ++ condition.listing ++ ")" ++ elision
  | .loop _ _ condition _ _ => "for (..; " ++ condition.listing ++ "; ..)" ++ elision
  | .each x collection _ => "foreach (" ++ x.name ++ " in " ++ collection.listing ++ ")" ++ elision
  | .switch subject _ => "switch (" ++ subject.listing ++ ")" ++ elision
  | .label name (some guard) => "label " ++ name ++ " when " ++ guard.listing
  | .label name none => "label " ++ name

mutual

/-- A step without its indentation and its line break. -/
def Step.lines (depth : Nat) : Step → String
  | .block body => body.lines depth
  | .when condition body => "if (" ++ condition.listing ++ ") " ++ body.lines depth
  | .choose condition body otherwise =>
    "if (" ++ condition.listing ++ ") " ++ body.lines depth ++ " else " ++ otherwise.lines depth
  | .loop _ initial condition update body =>
    "for (" ++ initial.inline ++ "; " ++ condition.listing ++ "; " ++ update.inline ++ ") "
      ++ body.lines depth
  | .each x collection body =>
    "foreach (" ++ x.name ++ " in " ++ collection.listing ++ ") " ++ body.lines depth
  | .switch subject body => "switch (" ++ subject.listing ++ ") " ++ body.lines depth
  | step => step.inline

/-- A body in braces, its steps one level deeper. -/
def Block.lines (depth : Nat) : Block → String
  | .mk _ steps => "\x7b\n" ++ Step.listing (depth + 1) steps ++ indentation depth ++ "\x7d"

/-- Steps on lines of their own. -/
def Step.listing (depth : Nat) : List Step → String
  | [] => ""
  | step :: rest => indentation depth ++ step.lines depth ++ "\n" ++ Step.listing depth rest

end

def Program.listing (program : Program) : String := Step.listing 0 program.body.steps

end Stencil
