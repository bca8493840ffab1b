import Stencil.Json.Basic
import Stencil.Value.Text
/-!
# Render options
-/

namespace Stencil

/-- What a render depends on besides its program and its model. -/
structure Options where
  /-- Written in place of missing data. -/
  undefinedText : String
  /-- The most loop rounds that one render may take. -/
  iterationLimit : Option UInt64
deriving DecidableEq

instance : Inhabited Options where
  default := ⟨"", none⟩

namespace Options

/-- What `emit` writes for a value. -/
def textOf (options : Options) (v : Value) : String :=
  if v.isNullish then options.undefinedText else v.text

/-! ## Options in JSON -/

def undefinedTextOfJson? : Json → Option String
  | .string s => some s
  | _ => none

/-- A limit, or `null` for none. -/
def iterationLimitOfJson? : Json → Option (Option UInt64)
  | .null => some none
  | .integer n => if 0 ≤ n ∧ n.toNat < 2 ^ 64 then some (some (.ofNat n.toNat)) else none
  | _ => none

/-- The value of a field, the default where it is missing. -/
def fieldOfJson? {α : Type} (read : Json → Option α) (default : α) : Option Json → Option α
  | some json => read json
  | none => some default

/-- Options by name, where other names do not count, or by position; what is missing is the default. -/
def ofJson? : Json → Option Options
  | .object fields => do
    let text ← fieldOfJson? undefinedTextOfJson? "" (Fields.get? "undefined_text" fields)
    let limit ← fieldOfJson? iterationLimitOfJson? none (Fields.get? "iteration_limit" fields)
    return ⟨text, limit⟩
  | .array items => do
    if items.length > 2 then none
    let text ← fieldOfJson? undefinedTextOfJson? "" items[0]?
    let limit ← fieldOfJson? iterationLimitOfJson? none items[1]?
    return ⟨text, limit⟩
  | _ => none

end Options

end Stencil
