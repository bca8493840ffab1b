import Stencil.Value.Text
/-!
# Reading parts of values

What is missing reads as `undefined`.
-/

namespace Stencil.Value

def ofNat (n : Nat) : Value := .integer (.ofNat n)

def ofChars (cs : List Char) : Value := .string (.ofList cs)

/-- A field of an object, or the length of an array or a string. -/
def member (v : Value) (name : String) : Value :=
  match v with
  | .object fields => (Fields.get? name fields).getD .undefined
  | .array items => if name = "length" then ofNat items.length else .undefined
  | .string s => if name = "length" then ofNat s.length else .undefined
  | _ => .undefined

/-- The position an index names: a whole number from zero on, or a numeral for one. -/
def position? : Value → Option Nat
  | .integer n => if 0 ≤ n then some n.toInt.toNat else none
  | .real x => if x.isIntegral then (x.truncate?.filter (0 ≤ ·)).map Int.toNat else none
  | .string s => readWord? s.toList
  | _ => none

/-- An item of an array, a character of a string, or the field that the index's text names. -/
def index (v i : Value) : Value :=
  match v with
  | .array items => (i.position?.bind (items[·]?)).getD .undefined
  | .string s => ((i.position?.bind (s.toList[·]?)).map fun c => ofChars [c]).getD .undefined
  | .object _ => v.member i.text
  | _ => .undefined

end Stencil.Value
