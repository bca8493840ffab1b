import Stencil.Fault
/-!
# Arguments of methods

A position counts arguments from zero; messages count them from one.
-/

namespace Stencil.Argument

/-- A text that has to be given. -/
def text (method : String) (args : List Value) (position : Nat) : Except Fault (List Char) :=
  match args[position]? with
  | some (.string s) => .ok s.toList
  | some v => .error (.invalidArgument method (.notString v.kind))
  | none => .error (.invalidArgument method (.missing (position + 1)))

/--
An integer that may be left out or `undefined`. A double is cut to a whole number and held within 64
bits; NaN counts as zero.
-/
def integer? (method : String) (args : List Value) (position : Nat) : Except Fault (Option Int64) :=
  match args[position]? with
  | none | some .undefined => .ok none
  | some (.integer n) => .ok (some n)
  | some v =>
    match v.toNumber? with
    | some x => .ok (some (.ofInt (x.clampTo Int64.minValue.toInt Int64.maxValue.toInt)))
    | none => .error (.invalidArgument method (.notNumber v.kind))

end Stencil.Argument
