import Stencil.Roster
/-!
# Command line

Renders the list of hobbits with the model in the file given as the first argument, or with the
built-in one.
-/

namespace Stencil.Roster

/-- The model file named on the command line, if one is named and can be read. -/
def Source.ofArguments (args : List String) : IO Source :=
  match args with
  | [] => return .builtIn
  | path :: _ => try return .text (← IO.FS.readFile path) catch _ => return .unreadable

end Stencil.Roster

def main (args : List String) : IO UInt32 := do
  let report := Stencil.Roster.run (← Stencil.Roster.Source.ofArguments args)
  IO.print report.stdout
  IO.eprint report.stderr
  return if report.success then 0 else 1
