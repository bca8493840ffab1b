import Stencil.Method.Array
import Stencil.Method.Text
/-!
# Calling methods

Nothing can be called on missing data. Every other value has `toString`; strings and arrays have their
own methods, and numbers have `toFixed`.
-/

namespace Stencil

/-- A number with a fixed number of places, from 0 to 100. -/
def toFixed (target : Value) (args : List Value) : Except Fault Value := do
  let digits := (← Argument.integer? "toFixed" args 0).getD 0
  if digits < 0 ∨ 100 < digits then
    throw (.invalidArgument "toFixed" (.digitsOutOfRange digits))
  match target.toNumber?.getD .nan with
  | .finite negative m =>
    let text := fixedPlaces digits.toInt.toNat m.units
    return .ofChars (if negative then '-' :: text else text)
  | x => return .string x.text

def callMethod (target : Value) (method : String) (args : List Value) : Except Fault Value :=
  if target.isNullish then
    .error (.callOnNullish method target.kind)
  else if method = "toString" then
    .ok (.string target.text)
  else
    let unknown := .error (.unknownMethod method target.kind)
    match target with
    | .string s => (TextMethod.ofName? method).elim unknown (·.call s.toList args)
    | .array items => (ArrayMethod.ofName? method).elim unknown (·.call items args)
    | .integer _ | .real _ => if method = "toFixed" then toFixed target args else unknown
    | _ => unknown

end Stencil
