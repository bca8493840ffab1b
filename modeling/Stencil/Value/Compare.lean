import Stencil.Value.Basic
/-!
# Equality and order of values
-/

namespace Stencil.Value

mutual

/-- Equality of representations; only doubles compare numerically, so NaN differs from itself. -/
def same : Value → Value → Bool
  | .undefined, .undefined | .null, .null => true
  | .bool a, .bool b => a == b
  | .integer m, .integer n => m == n
  | .real x, .real y => x.eq y
  | .string s, .string t => s == t
  | .array xs, .array ys => sameItems xs ys
  | .object xs, .object ys => sameFields xs ys
  | _, _ => false

def sameItems : List Value → List Value → Bool
  | [], [] => true
  | x :: xs, y :: ys => same x y && sameItems xs ys
  | _, _ => false

def sameFields : List (String × Value) → List (String × Value) → Bool
  | [], [] => true
  | (a, x) :: xs, (b, y) :: ys => a == b && same x y && sameFields xs ys
  | _, _ => false

end

/-- Equality under which integers and reals compare as doubles. -/
def strictEq (v w : Value) : Bool :=
  match v.number?, w.number? with
  | some x, some y => x.eq y
  | _, _ => v.same w

/-- Strict equality under which `undefined` and `null` are equal too. -/
def looseEq (v w : Value) : Bool := v.isNullish && w.isNullish || v.strictEq w

/-- Strings are ordered by code point, everything else by its numeric form. -/
def compare? : Value → Value → Option Ordering
  | .string s, .string t => some (compare s t)
  | v, w => do (← v.toNumber?).compare? (← w.toNumber?)

end Stencil.Value
