import Stencil.Json.Basic
import Stencil.Value.Basic
/-!
# Values and JSON

`ofJson` and `toJson` are inverse to each other but for what JSON cannot say: `undefined` and the
doubles that are not finite become `null`, and an integer beyond 64 bits with a sign becomes a real.
-/

namespace Stencil.Value

mutual

def ofJson : Json → Value
  | .null => .null
  | .bool b => .bool b
  | .integer n =>
    match int64? n with
    | some n => .integer n
    | none => .real (.ofInt n)
  | .real x => .real x
  | .string s => .string s
  | .array items => .array (ofJsonItems items)
  | .object fields => .object (ofJsonFields fields)

def ofJsonItems : List Json → List Value
  | [] => []
  | item :: rest => ofJson item :: ofJsonItems rest

def ofJsonFields : List (String × Json) → List (String × Value)
  | [] => []
  | (name, value) :: rest => (name, ofJson value) :: ofJsonFields rest

end

mutual

def toJson : Value → Json
  | .undefined | .null => .null
  | .bool b => .bool b
  | .integer n => .integer n.toInt
  | .real x => if x.isFinite then .real x else .null
  | .string s => .string s
  | .array items => .array (toJsonItems items)
  | .object fields => .object (toJsonFields fields)

def toJsonItems : List Value → List Json
  | [] => []
  | item :: rest => item.toJson :: toJsonItems rest

def toJsonFields : List (String × Value) → List (String × Json)
  | [] => []
  | (name, value) :: rest => (name, value.toJson) :: toJsonFields rest

end

end Stencil.Value
