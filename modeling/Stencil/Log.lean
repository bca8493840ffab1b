import Stencil.Program.Listing
import Stencil.View
/-!
# The log

What compiling and rendering report about themselves, in order.
-/

namespace Stencil

inductive Level where
  | trace
  | debug
deriving DecidableEq

structure LogEntry where
  level : Level
  text : String

namespace Log

/-- The names that were looked up, then the program if the template has one. -/
def ofCompile (segments : List Segment) : List LogEntry :=
  let compiled := compile segments
  let names := compiled.notes.map fun note => ⟨.trace, note.message⟩
  match compiled.result with
  | .ok program =>
    let steps := integerText program.body.steps.length
    let count := integerText segments.length
    let slots := integerText program.slots
    names ++ [
      ⟨.debug, "Generated " ++ steps ++ " top-level steps from " ++ count ++ " segments using "
        ++ slots ++ " local slots"⟩,
      ⟨.debug, "Transpiled view:\n" ++ program.listing⟩]
  | .error _ => names

def ofRender (program : Program) : List LogEntry :=
  [⟨.trace, "Rendering view with " ++ integerText program.slots ++ " local slots"⟩]

end Log

end Stencil
