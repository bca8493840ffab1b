import Stencil.Json.Basic
import Stencil.Number.Digits
/-!
# Writing JSON

The text is compact and keeps the order of the fields. Strings escape the quote, the backslash and
the controls below U+0020.
-/

namespace Stencil.Json

/-- The fewest digits; an exponent below `10⁻⁵` and from `10¹⁶` on, else a point and a fraction. -/
def realText : Binary64 → List Char
  | .finite negative m =>
    let sign := if negative then ['-'] else []
    if m.units = 0 then
      sign ++ ['0', '.', '0']
    else
      let digits := Digits.shortest .even m.units
      if -4 ≤ digits.point ∧ digits.point ≤ 16 then
        sign ++ digits.whole ++ '.' :: (if digits.fraction.isEmpty then ['0'] else digits.fraction)
      else
        sign ++ digits.scientific
  | _ => ['n', 'u', 'l', 'l']

def escape (c : Char) : List Char :=
  if c = '"' then ['\\', '"']
  else if c = '\\' then ['\\', '\\']
  else if c = '\n' then ['\\', 'n']
  else if c = '\r' then ['\\', 'r']
  else if c = '\t' then ['\\', 't']
  else if c = '\x08' then ['\\', 'b']
  else if c = '\x0c' then ['\\', 'f']
  else if c.toNat < 0x20 then
    ['\\', 'u', '0', '0', Nat.digitChar (c.toNat / 16), Nat.digitChar (c.toNat % 16)]
  else [c]

def quote (s : String) : String := .ofList ('"' :: s.toList.flatMap escape ++ ['"'])

mutual

/-- The compact text. -/
def text : Json → String
  | .null => "null"
  | .bool b => if b then "true" else "false"
  | .integer n => integerText n
  | .real x => .ofList (realText x)
  | .string s => quote s
  | .array items => "[" ++ ",".intercalate (textItems items) ++ "]"
  | .object fields => "\x7b" ++ ",".intercalate (textFields fields) ++ "\x7d"

def textItems : List Json → List String
  | [] => []
  | item :: rest => item.text :: textItems rest

def textFields : List (String × Json) → List String
  | [] => []
  | (name, value) :: rest => (quote name ++ ":" ++ value.text) :: textFields rest

end

end Stencil.Json
