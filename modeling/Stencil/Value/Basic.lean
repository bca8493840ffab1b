import Stencil.Fields
import Stencil.Number.Numeral
import Stencil.Text.CharClass
/-!
# Dynamic values

The values of a model and of the expressions of a template, with their kinds, their truth and their
numeric form.
-/

namespace Stencil

inductive Value where
  | undefined
  | null
  | bool (b : Bool)
  | integer (n : Int64)
  | real (x : Binary64)
  | string (s : String)
  | array (items : List Value)
  | object (fields : List (String × Value))
deriving Inhabited

/-- What messages call a value. Integers and reals are one kind. -/
inductive Kind where
  | undefined
  | null
  | boolean
  | number
  | string
  | array
  | object
deriving DecidableEq

def Kind.text : Kind → String
  | .undefined => "undefined"
  | .null => "null"
  | .boolean => "a boolean"
  | .number => "a number"
  | .string => "a string"
  | .array => "an array"
  | .object => "an object"

namespace Value

def kind : Value → Kind
  | .undefined => .undefined
  | .null => .null
  | .bool _ => .boolean
  | .integer _ | .real _ => .number
  | .string _ => .string
  | .array _ => .array
  | .object _ => .object

/-- `undefined` and `null` stand for missing data. -/
def isNullish : Value → Bool
  | .undefined | .null => true
  | _ => false

/-- Missing data, `false`, zeros, NaN and the empty string are false; all else is true. -/
def isTruthy : Value → Bool
  | .undefined | .null => false
  | .bool b => b
  | .integer n => n != 0
  | .real x => !x.isZero && !x.isNaN
  | .string s => !s.isEmpty
  | .array _ | .object _ => true

/-- The double that a number is compared by. -/
def number? : Value → Option Binary64
  | .integer n => some (.ofInt64 n)
  | .real x => some x
  | _ => none

/--
The number a text stands for: zero if it is empty, NaN if it is no decimal. `Infinity` is the only
word for a number.
-/
def numberOfText (cs : List Char) : Binary64 :=
  if cs = [] then .zero false
  else if cs = "Infinity".toList ∨ cs = "+Infinity".toList then .infinite false
  else if cs = "-Infinity".toList then .infinite true
  else (readBinary64? cs).getD .nan

/-- Every primitive value has a numeric form; arrays and objects have none. -/
def toNumber? : Value → Option Binary64
  | .undefined => some .nan
  | .null => some (.zero false)
  | .bool b => some (.ofInt (if b then 1 else 0))
  | .integer n => some (.ofInt64 n)
  | .real x => some x
  | .string s => some (numberOfText (Text.trim s.toList))
  | .array _ | .object _ => none

end Value

end Stencil
