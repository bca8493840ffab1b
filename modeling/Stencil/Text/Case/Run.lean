/-!
# Runs of characters that change case alike
-/

namespace Stencil

/-- Every `step`-th code point from `first` to `last` moves by `offset`. -/
structure CaseRun where
  first : Nat
  last : Nat
  step : Nat
  offset : Int

namespace CaseRun

def covers (run : CaseRun) (code : Nat) : Bool :=
  run.first ≤ code && code ≤ run.last && (code - run.first) % run.step == 0

def shift (run : CaseRun) (code : Nat) : Char := .ofNat (code + run.offset).toNat

end CaseRun

/-- The case of one character: an expansion if it has one, else its run, else itself. -/
def mapCase (runs : List CaseRun) (expansions : List (Nat × List Nat)) (c : Char) : List Char :=
  match expansions.lookup c.toNat with
  | some codes => codes.map Char.ofNat
  | none =>
    match runs.find? (·.covers c.toNat) with
    | some run => [run.shift c.toNat]
    | none => [c]

end Stencil
