import Stencil.Method.Argument
import Stencil.Text.Case
import Stencil.Text.Search
import Stencil.Value.Access
/-!
# Methods of strings

Positions count characters.
-/

namespace Stencil

inductive TextMethod where
  | toUpperCase
  | toLowerCase
  | trim
  | includes
  | startsWith
  | endsWith
  | indexOf
  | charAt
  | substring
  | split
  | replace
deriving DecidableEq

namespace TextMethod

def name : TextMethod → String
  | .toUpperCase => "toUpperCase"
  | .toLowerCase => "toLowerCase"
  | .trim => "trim"
  | .includes => "includes"
  | .startsWith => "startsWith"
  | .endsWith => "endsWith"
  | .indexOf => "indexOf"
  | .charAt => "charAt"
  | .substring => "substring"
  | .split => "split"
  | .replace => "replace"

def all : List TextMethod := [
  .toUpperCase, .toLowerCase, .trim, .includes, .startsWith, .endsWith, .indexOf, .charAt,
  .substring, .split, .replace
]

def ofName? (name : String) : Option TextMethod := all.find? (·.name == name)

end TextMethod

namespace Text

/-- The position that an integer names in a text of this length, at most its end. -/
def clamp (length : Nat) (n : Int64) : Nat := min n.toInt.toNat length

/-- The characters from the smaller to the larger of two positions. -/
def between (cs : List Char) (i j : Nat) : List Char := (cs.drop (min i j)).take (max i j - min i j)

def substring (cs : List Char) (first last : Option Int64) : List Char :=
  between cs ((first.map (clamp cs.length)).getD 0) ((last.map (clamp cs.length)).getD cs.length)

/-- The character at a position, none before the start and after the end. -/
def charAt (cs : List Char) (n : Int64) : List Char :=
  if n < 0 then [] else (cs[n.toInt.toNat]?).toList

/-- The position of the first occurrence, or -1. -/
def indexOf (cs pattern : List Char) : Int64 :=
  match find? pattern cs with
  | some k => .ofNat k
  | none => -1

end Text

def TextMethod.call (method : TextMethod) (cs : List Char) (args : List Value) :
    Except Fault Value := do
  let textAt := Argument.text method.name args
  let integerAt := Argument.integer? method.name args
  match method with
  | .toUpperCase => return .ofChars (Text.upperCase cs)
  | .toLowerCase => return .ofChars (Text.lowerCase cs)
  | .trim => return .ofChars (Text.trim cs)
  | .includes => return .bool (Text.find? (← textAt 0) cs).isSome
  | .startsWith => return .bool ((← textAt 0).isPrefixOf cs)
  | .endsWith => return .bool ((← textAt 0).isSuffixOf cs)
  | .indexOf => return .integer (Text.indexOf cs (← textAt 0))
  | .charAt => return .ofChars (Text.charAt cs ((← integerAt 0).getD 0))
  | .substring => return .ofChars (Text.substring cs (← integerAt 0) (← integerAt 1))
  | .split => return .array ((Text.split (← textAt 0) cs).map Value.ofChars)
  | .replace => return .ofChars (Text.replaceFirst (← textAt 0) (← textAt 1) cs)

end Stencil
