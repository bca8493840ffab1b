import Stencil.Compile.Segment
import Stencil.Machine.Run
/-!
# Views

A view type is a compiled template with its options; a view is a view type bound to a model. Rendering
leaves the model as it is.
-/

namespace Stencil

structure ViewType where
  program : Program
  options : Options

/-- A view type bound to a model. -/
structure View where
  type : ViewType
  model : Value

def ViewType.ofTemplate (segments : List Segment) (options : Options) :
    Except SegmentFault ViewType := do
  return ⟨← (compile segments).result, options⟩

/-- The view of a model; without one the model is `undefined`. -/
def ViewType.instantiate (type : ViewType) (model : Option Value) : View :=
  ⟨type, model.getD .undefined⟩

/-- The text of the view, unless a loop takes `rounds` rounds. -/
def View.render (view : View) (rounds : Nat) : Except Halt String :=
  view.type.program.render view.type.options rounds view.model

end Stencil
