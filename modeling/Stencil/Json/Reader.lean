import Stencil.Json.Token
/-!
# Reading JSON

A reader goes over the tokens with the arrays and objects that are still open on a stack. Of two
fields of one name the later one counts.
-/

namespace Stencil.Json

/-- An open array or object that waits for a value. Items stand newest first. -/
inductive Frame where
  | item (items : List Json)
  | field (fields : Fields Json) (name : String)

/-- What the reader has and what may come next. -/
inductive Reading where
  | value (outer : List Frame)
  | firstItem (outer : List Frame)
  | nextItem (items : List Json) (outer : List Frame)
  | firstName (outer : List Frame)
  | nextName (fields : Fields Json) (outer : List Frame)
  | colon (fields : Fields Json) (name : String) (outer : List Frame)
  | nextField (fields : Fields Json) (outer : List Frame)
  | done (value : Json)

/-- Gives a finished value to what waits for it. -/
def accept (value : Json) : List Frame → Reading
  | [] => .done value
  | .item items :: outer => .nextItem (value :: items) outer
  | .field fields name :: outer => .nextField (fields.insert name value) outer

/-- The first token of a value. -/
def start (maxDepth : Nat) (outer : List Frame) : Token → Option Reading
  | .string s => some (accept (.string s) outer)
  | .word value => some (accept value outer)
  | .openArray => if outer.length < maxDepth then some (.firstItem outer) else none
  | .openObject => if outer.length < maxDepth then some (.firstName outer) else none
  | _ => none

/-- One token. -/
def read (maxDepth : Nat) : Reading → Token → Option Reading
  | .value outer, token => start maxDepth outer token
  | .firstItem outer, .closeArray => some (accept (.array []) outer)
  | .firstItem outer, token => start maxDepth (.item [] :: outer) token
  | .nextItem items outer, .comma => some (.value (.item items :: outer))
  | .nextItem items outer, .closeArray => some (accept (.array items.reverse) outer)
  | .firstName outer, .closeObject => some (accept (.object []) outer)
  | .firstName outer, .string name => some (.colon [] name outer)
  | .nextName fields outer, .string name => some (.colon fields name outer)
  | .colon fields name outer, .colon => some (.value (.field fields name :: outer))
  | .nextField fields outer, .comma => some (.nextName fields outer)
  | .nextField fields outer, .closeObject => some (accept (.object fields) outer)
  | _, _ => none

/-- The value of a text in which at most `maxDepth` arrays and objects stand inside each other. -/
def parse? (maxDepth : Nat) (text : String) : Option Json := do
  let tokens ← tokens? text.toList
  match ← tokens.foldlM (read maxDepth) (.value []) with
  | .done value => some value
  | _ => none

end Stencil.Json
