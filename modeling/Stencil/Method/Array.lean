import Stencil.Method.Argument
import Stencil.Value.Compare
import Stencil.Value.Access
/-!
# Methods of arrays
-/

namespace Stencil

inductive ArrayMethod where
  | join
  | includes
  | indexOf
  | slice
  | reverse
  | concat
deriving DecidableEq

namespace ArrayMethod

def name : ArrayMethod → String
  | .join => "join"
  | .includes => "includes"
  | .indexOf => "indexOf"
  | .slice => "slice"
  | .reverse => "reverse"
  | .concat => "concat"

def all : List ArrayMethod := [.join, .includes, .indexOf, .slice, .reverse, .concat]

def ofName? (name : String) : Option ArrayMethod := all.find? (·.name == name)

/-- The separator of `join`: a comma unless one is given. -/
def separator (args : List Value) : Except Fault String :=
  match args with
  | [] | .undefined :: _ => .ok ","
  | _ => return .ofList (← Argument.text "join" args 0)

end ArrayMethod

namespace Items

/-- The position an integer names in an array of this length; negative ones count from the end. -/
def resolve (length : Nat) (n : Int64) : Nat :=
  if n < 0 then (length + n.toInt).toNat else min n.toInt.toNat length

/-- The items from `first` to before `last`, none if they cross. -/
def slice (items : List Value) (first last : Option Int64) : List Value :=
  let start := (first.map (resolve items.length)).getD 0
  let stop := (last.map (resolve items.length)).getD items.length
  (items.drop start).take (stop - start)

/-- The position of the first item strictly equal to `needle`, or -1. -/
def indexOf (items : List Value) (needle : Value) : Int64 :=
  match items.findIdx? (·.strictEq needle) with
  | some k => .ofNat k
  | none => -1

end Items

/-- What an argument of `concat` adds. -/
def ArrayMethod.added : Value → List Value
  | .array items => items
  | v => [v]

def ArrayMethod.call (method : ArrayMethod) (items args : List Value) : Except Fault Value := do
  let needle := args.head?.getD .undefined
  match method with
  | .join => return .string ((← separator args).intercalate (items.map Value.text))
  | .includes => return .bool (items.any (·.strictEq needle))
  | .indexOf => return .integer (Items.indexOf items needle)
  | .slice =>
    let first ← Argument.integer? "slice" args 0
    let last ← Argument.integer? "slice" args 1
    return .array (Items.slice items first last)
  | .reverse => return .array items.reverse
  | .concat => return .array (items ++ args.flatMap added)

end Stencil
