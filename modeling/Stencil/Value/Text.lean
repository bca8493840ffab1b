import Stencil.Json.Printer
import Stencil.Value.Json
/-!
# The text of a value

Missing data has no text. An array is its items with commas between them, an object its JSON.
-/

namespace Stencil

/-- A whole double below `10¹⁵` is written as an integer; others with the fewest digits. -/
def Binary64.text : Binary64 → String
  | .nan => "NaN"
  | .infinite negative => if negative then "-Infinity" else "Infinity"
  | .finite negative m =>
    if m.units % one = 0 ∧ m.units < 10 ^ 15 * one then
      integerText (applySign negative (m.units / one))
    else
      let digits := (Digits.shortest .up m.units).positional
      .ofList (if negative then '-' :: digits else digits)

namespace Value

mutual

def text : Value → String
  | .undefined | .null => ""
  | .bool b => if b then "true" else "false"
  | .integer n => integerText n.toInt
  | .real x => x.text
  | .string s => s
  | .array items => ",".intercalate (textItems items)
  | .object fields => (toJson (.object fields)).text

def textItems : List Value → List String
  | [] => []
  | item :: rest => item.text :: textItems rest

end

end Value

end Stencil
