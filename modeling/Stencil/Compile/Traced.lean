import Stencil.Compile.Fault
import Stencil.Number.Digits
import Stencil.Scope
/-!
# Computations that keep notes

Compiling a template notes what every bare name turned out to be, up to the point where it fails.
`Traced.result` forgets the notes; it takes binds to binds, so statements about results need not
mention notes.
-/

namespace Stencil

/-- What a bare name turned out to be. -/
inductive Note where
  | variable (x : Local)
  | model (name : String)
deriving DecidableEq

def Note.message : Note → String
  | .variable x => "`" ++ x.name ++ "` is local (slot " ++ integerText x.slot ++ ")"
  | .model name => "`" ++ name ++ "` is model-bound"

/-- A result with the notes made on the way to it. -/
structure Traced (α : Type) where
  notes : List Note
  result : Except SegmentFault α

namespace Traced

variable {α β : Type}

def bind (x : Traced α) (f : α → Traced β) : Traced β :=
  match x.result with
  | .ok a => ⟨x.notes ++ (f a).notes, (f a).result⟩
  | .error fault => ⟨x.notes, .error fault⟩

instance : Monad Traced where
  pure a := ⟨[], .ok a⟩
  bind := bind

def fail (segment : String) (problem : SegmentProblem) : Traced α :=
  ⟨[], .error ⟨segment, problem⟩⟩

/-- What the name is in the scope, noted. -/
def lookup (scope : Scope) (name : String) : Traced (Option Local) :=
  match scope.resolve? name with
  | some x => ⟨[.variable x], .ok (some x)⟩
  | none => ⟨[.model name], .ok none⟩

@[simp] theorem result_pure (a : α) : (pure a : Traced α).result = .ok a := rfl

@[simp] theorem result_bind (x : Traced α) (f : α → Traced β) :
    (x >>= f).result = x.result >>= fun a => (f a).result := by
  change (bind x f).result = _
  unfold bind
  cases x.result <;> rfl

@[simp] theorem result_fail (segment : String) (problem : SegmentProblem) :
    (fail segment problem : Traced α).result = .error ⟨segment, problem⟩ := rfl

@[simp] theorem result_lookup (scope : Scope) (name : String) :
    (lookup scope name).result = .ok (scope.resolve? name) := by
  unfold lookup
  cases h : scope.resolve? name <;> rfl

end Traced

end Stencil
