import Stencil.Place
/-!
# Scopes

Which names are local variables at a point of a template, and in which slot. Every declaration takes
the next slot; a name that no open frame declares belongs to the model.
-/

namespace Stencil

/-- The open frames, innermost first, each with its declarations, newest first. -/
structure Scope where
  frames : List (List Local)
  count : Nat

namespace Scope

def empty : Scope := ⟨[], 0⟩

def push (scope : Scope) : Scope := { scope with frames := [] :: scope.frames }

/-- Closes the innermost frame and gives the slots it declared, in order. -/
def pop (scope : Scope) : List Nat × Scope :=
  match scope.frames with
  | [] => ([], scope)
  | frame :: outer => ((frame.map Local.slot).reverse, { scope with frames := outer })

/-- The newest declaration of the name in the innermost frame that has one. -/
def resolve? (scope : Scope) (name : String) : Option Local :=
  scope.frames.findSome? (·.find? (·.name == name))

/-- Declares the name in the innermost frame, which is opened if there is none. -/
def declare (scope : Scope) (name : String) : Local × Scope :=
  let x : Local := ⟨scope.count, name⟩
  match scope.frames with
  | [] => (x, ⟨[[x]], scope.count + 1⟩)
  | frame :: outer => (x, ⟨(x :: frame) :: outer, scope.count + 1⟩)

/-- The visible declaration of the name, or a new one; the flag tells whether it is new. -/
def bind (scope : Scope) (name : String) : Local × Bool × Scope :=
  match scope.resolve? name with
  | some x => (x, false, scope)
  | none =>
    let (x, scope) := scope.declare name
    (x, true, scope)

end Scope

end Stencil
