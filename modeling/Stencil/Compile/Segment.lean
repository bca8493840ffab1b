import Stencil.Compile.Expr
/-!
# Compiling segments

Segments become steps one after the other, and the scope is handed on from each to the next. A block
opens a frame and closes it again; the steps of a block have no empty and no adjacent writes.
-/

namespace Stencil

open Traced

/-! ## Steps of a block -/

/-- Writes next to each other become one; empty ones vanish. -/
def joinWrites : List Step → List Step
  | [] => []
  | .write s :: rest =>
    match joinWrites rest with
    | .write t :: joined => .write (s ++ t) :: joined
    | joined => if s = "" then joined else .write s :: joined
  | step :: rest => step :: joinWrites rest

/-- The block of steps compiled in a frame of their own, and the scope after it. -/
def closeBlock (compiled : Traced (List Step × Scope)) : Traced (Block × Scope) := do
  let (steps, inner) ← compiled
  let (locals, outer) := inner.pop
  return (.mk locals (joinWrites steps), outer)

/-! ## Markup -/

/-- Not empty, without white space and the characters that end a name in a tag. -/
def isMarkupName (name : String) : Bool :=
  !name.isEmpty && name.toList.all fun c =>
    !(Text.isBlank c || c = '<' || c = '>' || c = '/' || c = '"' || c = '\'' || c = '=')

def checkMarkupName (name segment : String) : Traced Unit :=
  if isMarkupName name then pure () else fail segment (.markupName name)

def checkTagSpace (space segment : String) : Traced Unit :=
  if space.toList.all Text.isBlank then pure () else fail segment .tagSpace

/-! ## Assignments -/

/--
An assignment, its value first. A bare name is a new variable where `fresh` asks for one or none is
visible; a member of anything is stored.
-/
def compileAssign (fresh : Bool) (scope : Scope) (target : Target) (value : Expr) :
    Traced (Step × Scope) := do
  let e ← value.compile scope
  match target with
  | .member parent x => return (.store (← compilePlace scope parent x) e, scope)
  | .name x => do
    checkIdentifier x x
    if fresh then
      let (y, scope) := scope.declare x
      return (.declare y e, scope)
    match ← lookup scope x with
    | some y => return (.assign y e, scope)
    | none =>
      let (y, scope) := scope.declare x
      return (.declare y e, scope)

/-! ## Statements and segments -/

mutual

/-- Compiles a statement. An assignment is fresh as the start of a loop. -/
def Statement.compile (fresh : Bool) (scope : Scope) : Statement → Traced (Step × Scope)
  | .assign target value => compileAssign fresh scope target value
  | .when condition body => do
    let c ← condition.compile scope
    let (body, scope) ← closeBlock (Segment.compileAll scope.push body)
    return (.when c body, scope)
  | .choose condition body otherwise => do
    let c ← condition.compile scope
    let (body, scope) ← closeBlock (Segment.compileAll scope.push body)
    let (otherwise, scope) ← closeBlock (Segment.compileAll scope.push otherwise)
    return (.choose c body otherwise, scope)
  | .loop initial condition increment body => do
    let (initial, scope) ← initial.compile true scope.push
    let c ← condition.compile scope
    let (update, scope) ←
      match increment with
      | .expr e => pure (.eval (← e.compile scope), scope)
      | .statement s => s.compile false scope
      | _ => fail increment.surface .increment
    let (body, scope) ← closeBlock (Segment.compileAll scope.push body)
    let (locals, scope) := scope.pop
    return (.loop locals initial c update body, scope)
  | .each x collection body => do
    checkIdentifier x (Statement.each x collection body).surface
    let c ← collection.compile scope
    let (y, scope) := scope.push.declare x
    let (body, scope) ← closeBlock (Segment.compileAll scope.push body)
    return (.each y c body, scope.pop.2)
  | .switch subject body => do
    let e ← subject.compile scope
    let (body, scope) ← closeBlock (Segment.compileAll scope.push body)
    return (.switch e body, scope)
  | .label name guard => do
    if (Text.trim name.toList).isEmpty then
      fail (Statement.label name guard).surface .blankLabel
    match guard with
    | some e => return (.label name (some (← e.compile scope)), scope)
    | none => return (.label name none, scope)

def Segment.compile (scope : Scope) : Segment → Traced (List Step × Scope)
  | .text s => return ([.write s], scope)
  | .expr e => return ([.emit (← e.compile scope)], scope)
  | .statement s => do
    let (step, scope) ← s.compile false scope
    return ([step], scope)
  | .block body => do
    let (body, scope) ← closeBlock (Segment.compileAll scope.push body)
    return ([.block body], scope)
  | .element name attributes space selfClosing children => do
    let markup := (Segment.element name attributes space selfClosing children).surface
    checkMarkupName name markup
    checkTagSpace space markup
    let (inTag, scope) ← Attribute.compileAll scope attributes
    let tag := .write ("<" ++ name) :: inTag ++ [.write space]
    if selfClosing then
      return (tag ++ [.write "/>"], scope)
    let (inside, scope) ← Segment.compileAll scope children
    return (tag ++ .write ">" :: inside ++ [.write ("</" ++ name ++ ">")], scope)

def Segment.compileAll (scope : Scope) : List Segment → Traced (List Step × Scope)
  | [] => return ([], scope)
  | segment :: rest => do
    let (steps, scope) ← segment.compile scope
    let (more, scope) ← Segment.compileAll scope rest
    return (steps ++ more, scope)

def Attribute.compile (scope : Scope) : Attribute → Traced (List Step × Scope)
  | .flag name => do
    checkMarkupName name name
    return ([.write (" " ++ name)], scope)
  | .valued name value => do
    checkMarkupName name (Attribute.valued name value).surface
    let (steps, scope) ← Segment.compileAll scope value
    return (.write (" " ++ name ++ "=\"") :: steps ++ [.write "\""], scope)

def Attribute.compileAll (scope : Scope) : List Attribute → Traced (List Step × Scope)
  | [] => return ([], scope)
  | first :: rest => do
    let (steps, scope) ← first.compile scope
    let (more, scope) ← Attribute.compileAll scope rest
    return (steps ++ more, scope)

end

/-- The program of a template. -/
def compile (segments : List Segment) : Traced Program := do
  let (body, scope) ← closeBlock (Segment.compileAll Scope.empty.push segments)
  return ⟨body, scope.count⟩

end Stencil
