import Stencil.Json.Reader
import Stencil.View
/-!
# A list of hobbits

The demonstration: a template that lists the hobbits of a model with their names and ages.
-/

namespace Stencil.Roster

/-- The model of a render, before it is read. -/
inductive Source where
  | builtIn
  | text (json : String)
  | unreadable

/-- What the command line prints, and whether it succeeds. -/
structure Report where
  success : Bool
  stdout : String
  stderr : String

def hobbit (field : String) : Expr := .member (.name "hobbit") field

/-- One item of the list. -/
def item : List Segment := [
  .statement (.assign (.name "name") (hobbit "name")),
  .element "li" [] "" false
    [.expr (.name "name"), .text " (", .expr (hobbit "age"), .text ")"]
]

def template : List Segment := [
  .element "ul" [] "" false
    [.statement (.each "hobbit" (.member (.name "model") "hobbits") item)]
]

/-- The model that is listed when none is given. -/
def builtInModel : Json :=
  .object [("hobbits", .array [
    .object [("age", .integer 111), ("name", .string "Bilbo")],
    .object [("age", .integer 33), ("name", .string "Frodo")]])]

/-- Arrays and objects may stand this deep inside each other in a model file. -/
def maxDepth : Nat := 127

def load : Source → Option Json
  | .builtIn => some builtInModel
  | .text json => Json.parse? maxDepth json
  | .unreadable => none

def failure (message : String) : Report := ⟨false, "", message⟩

/-- Renders the template with a model; the template has no `loop`, so any number of rounds will do. -/
def render (model : Json) : Report :=
  match ViewType.ofTemplate template default with
  | .error fault => failure (fault.message ++ "\n")
  | .ok type =>
    match (type.instantiate (some (.ofJson model))).render 1 with
    | .ok text => ⟨true, text ++ "\n", ""⟩
    | .error (.fault fault) => failure (fault.message ++ "\n")
    | .error _ => failure ""

def run (source : Source) : Report :=
  match load source with
  | some model => render model
  | none => failure "unusable model file"

end Stencil.Roster
