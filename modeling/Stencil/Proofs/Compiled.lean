import Stencil.Compile.Segment
/-!
# Compiled parts of a template

`Compiled scope part steps scope'` says that compiling a part in `scope` gives `steps` and leaves
`scope'`. Its rules are the ways in which compiling succeeds (`compile_ok_iff`), so that what holds of
compiled templates is proved by induction on the rules.
-/

namespace Stencil

theorem bind_eq_ok {ε α β : Type} {x : Except ε α} {f : α → Except ε β} {b : β} :
    x >>= f = .ok b ↔ ∃ a, x = .ok a ∧ f a = .ok b := by
  cases x <;> simp [bind, Except.bind]

theorem checkIdentifier_ok {name segment : String} {u : Unit} :
    (checkIdentifier name segment).result = .ok u ↔ isIdentifier name := by
  unfold checkIdentifier
  split <;> simp_all

/-! ## Expressions -/

/-- What a bare name reads: the variable in scope, or the model. -/
def Scope.term (scope : Scope) (x : String) : Term :=
  match scope.resolve? x with
  | some y => .variable y
  | none => .model x

/-- What a chain of members starts from. -/
def Scope.root (scope : Scope) (x : String) : Root :=
  match scope.resolve? x with
  | some y => .variable y
  | none => .model x

section Expressions
variable {scope : Scope} {t : Term}

theorem literal_compile_ok {token : String} :
    ((Expr.literal token).compile scope).result = .ok t ↔
      ∃ v, Literal.decode token = .ok v ∧ Term.const v = t := by
  simp only [Expr.compile]
  cases Literal.decode token <;> simp

theorem name_compile_ok {x : String} :
    ((Expr.name x).compile scope).result = .ok t ↔ isIdentifier x ∧ scope.term x = t := by
  simp only [Expr.compile, Traced.result_bind, bind_eq_ok, checkIdentifier_ok, Traced.result_lookup,
    Scope.term]
  cases scope.resolve? x <;> simp

theorem member_compile_ok {target : Expr} {x : String} :
    ((Expr.member target x).compile scope).result = .ok t ↔ isIdentifier x ∧
      ∃ e, (target.compile scope).result = .ok e ∧ Term.member e x = t := by
  simp [Expr.compile, bind_eq_ok, checkIdentifier_ok]

theorem index_compile_ok {target position : Expr} :
    ((Expr.index target position).compile scope).result = .ok t ↔
      ∃ e i, (target.compile scope).result = .ok e ∧ (position.compile scope).result = .ok i ∧
        Term.index e i = t := by
  simp [Expr.compile, bind_eq_ok]

theorem call_compile_ok {target : Expr} {method : String} {args : List Expr} :
    ((Expr.call target method args).compile scope).result = .ok t ↔ isIdentifier method ∧
      ∃ e es, (target.compile scope).result = .ok e ∧ (Expr.compileArgs scope args).result = .ok es ∧
        Term.call e method es = t := by
  simp [Expr.compile, bind_eq_ok, checkIdentifier_ok]

theorem updateTarget_ok {e operand : Expr} {y : Local} :
    (updateTarget scope e operand).result = .ok y ↔
      ∃ x, operand = .name x ∧ isIdentifier x ∧ scope.resolve? x = some y := by
  cases operand with
  | name x =>
    simp only [updateTarget, Traced.result_bind, bind_eq_ok, checkIdentifier_ok, Traced.result_lookup]
    cases hx : scope.resolve? x <;> simp [hx]
  | _ => simp [updateTarget]

theorem unary_compile_ok {operator : String} {operand : Expr} :
    ((Expr.unary operator operand).compile scope).result = .ok t ↔
      (∃ op e, PrefixOp.ofSymbol? (operatorSymbol operator) = some (.unary op) ∧
        (operand.compile scope).result = .ok e ∧ Term.unary op e = t) ∨
      (∃ op x y, PrefixOp.ofSymbol? (operatorSymbol operator) = some (.update op) ∧ operand = .name x ∧
        isIdentifier x ∧ scope.resolve? x = some y ∧ Term.update op y = t) := by
  simp only [Expr.compile]
  split <;> simp_all only [Traced.result_bind, Traced.result_pure, Traced.result_fail, bind_eq_ok, updateTarget_ok]
  · simp
  · constructor
    · rintro ⟨y, ⟨x, rfl, hx, hy⟩, ht⟩
      exact .inr ⟨_, x, y, rfl, rfl, hx, hy, by simpa using ht⟩
    · rintro (⟨_, _, heq, _⟩ | ⟨op, x, y, heq, rfl, hx, hy, rfl⟩)
      · simp at heq
      · cases heq
        exact ⟨y, ⟨x, rfl, hx, hy⟩, rfl⟩
  · simp

theorem binary_compile_ok {operator : String} {left right : Expr} :
    ((Expr.binary operator left right).compile scope).result = .ok t ↔
      ∃ op l r, BinaryOp.ofSymbol? (operatorSymbol operator) = some op ∧
        (left.compile scope).result = .ok l ∧ (right.compile scope).result = .ok r ∧
        Term.binary op l r = t := by
  simp only [Expr.compile]
  split <;> simp_all [bind_eq_ok]

theorem conditional_compile_ok {condition ifTrue ifFalse : Expr} :
    ((Expr.conditional condition ifTrue ifFalse).compile scope).result = .ok t ↔
      ∃ c a b, (condition.compile scope).result = .ok c ∧ (ifTrue.compile scope).result = .ok a ∧
        (ifFalse.compile scope).result = .ok b ∧ Term.conditional c a b = t := by
  simp [Expr.compile, bind_eq_ok]

theorem compileArgs_cons_ok {e : Expr} {rest : List Expr} {ts : List Term} :
    (Expr.compileArgs scope (e :: rest)).result = .ok ts ↔
      ∃ t more, (e.compile scope).result = .ok t ∧ (Expr.compileArgs scope rest).result = .ok more ∧
        t :: more = ts := by
  simp [Expr.compileArgs, bind_eq_ok]

theorem checkIdentifiers_ok {segment : String} {names : List String} {u : Unit} :
    (checkIdentifiers segment names).result = .ok u ↔ ∀ name ∈ names, isIdentifier name := by
  induction names with
  | nil => simp [checkIdentifiers]
  | cons name rest ih => simp [checkIdentifiers, bind_eq_ok, checkIdentifier_ok, ih]

theorem compileRoot_result (name : String) : (compileRoot scope name).result = .ok (scope.root name) := by
  simp only [compileRoot, Scope.root, Traced.result_bind, Traced.result_lookup]
  cases scope.resolve? name <;> rfl

/-- A place is a chain of members, with names all along, from what its first name is in scope. -/
theorem compilePlace_ok {parent : Expr} {x : String} {place : Place} :
    (compilePlace scope parent x).result = .ok place ↔
      ∃ root path, (Expr.member parent x).chain = .ok (root, path) ∧
        (∀ name ∈ root :: path, isIdentifier name) ∧ ⟨scope.root root, path⟩ = place := by
  simp only [compilePlace]
  cases (Expr.member parent x).chain with
  | error e => simp
  | ok chain =>
    obtain ⟨root, path⟩ := chain
    simp only [Traced.result_bind, Traced.result_pure, bind_eq_ok, checkIdentifiers_ok, List.mem_reverse,
      compileRoot_result, Except.ok.injEq]
    constructor
    · rintro ⟨-, hn, _, rfl, hp⟩
      exact ⟨root, path, rfl, hn, hp⟩
    · rintro ⟨_, _, heq, hn, hp⟩
      cases heq
      exact ⟨(), hn, _, rfl, hp⟩

end Expressions

/-! ## Parts of a template -/

/-- What the compiler works on, with what it is told about a statement or a segment. -/
inductive Part where
  | statement (fresh : Bool) (s : Statement)
  | increment (s : Segment)
  | body (l : List Segment)
  | segment (s : Segment)
  | segments (l : List Segment)
  | attribute (a : Attribute)
  | attributes (l : List Attribute)

/-- Compiling a part; statements, increments and bodies give one step. -/
def Part.compile (scope : Scope) : Part → Traced (List Step × Scope)
  | .statement fresh s => do
    let (step, scope) ← s.compile fresh scope
    return ([step], scope)
  | .increment (.expr e) => return ([.eval (← e.compile scope)], scope)
  | .increment (.statement s) => do
    let (step, scope) ← s.compile false scope
    return ([step], scope)
  | .increment s => Traced.fail s.surface .increment
  | .body l => do
    let (b, scope) ← closeBlock (Segment.compileAll scope.push l)
    return ([.block b], scope)
  | .segment s => s.compile scope
  | .segments l => Segment.compileAll scope l
  | .attribute a => a.compile scope
  | .attributes l => Attribute.compileAll scope l

/-- The part compiles to the steps and takes the first scope to the second. -/
inductive Compiled : Scope → Part → List Step → Scope → Prop
  | store {scope fresh parent x value place e} :
      (value.compile scope).result = .ok e → (compilePlace scope parent x).result = .ok place →
      Compiled scope (.statement fresh (.assign (.member parent x) value)) [.store place e] scope
  | declare {scope x value e} {fresh : Bool} :
      (value.compile scope).result = .ok e → isIdentifier x → (fresh = true ∨ scope.resolve? x = none) →
      Compiled scope (.statement fresh (.assign (.name x) value)) [.declare ⟨scope.count, x⟩ e]
        (scope.declare x).2
  | assign {scope x y value e} :
      (value.compile scope).result = .ok e → isIdentifier x → scope.resolve? x = some y →
      Compiled scope (.statement false (.assign (.name x) value)) [.assign y e] scope
  | when {scope scope' fresh condition body c b} :
      (condition.compile scope).result = .ok c → Compiled scope (.body body) [.block b] scope' →
      Compiled scope (.statement fresh (.when condition body)) [.when c b] scope'
  | choose {scope scope₁ scope₂ fresh condition body otherwise c b o} :
      (condition.compile scope).result = .ok c → Compiled scope (.body body) [.block b] scope₁ →
      Compiled scope₁ (.body otherwise) [.block o] scope₂ →
      Compiled scope (.statement fresh (.choose condition body otherwise)) [.choose c b o] scope₂
  | loop {scope scope₁ scope₂ scope₃ fresh initial condition increment body i c u b} :
      Compiled scope.push (.statement true initial) [i] scope₁ →
      (condition.compile scope₁).result = .ok c → Compiled scope₁ (.increment increment) [u] scope₂ →
      Compiled scope₂ (.body body) [.block b] scope₃ →
      Compiled scope (.statement fresh (.loop initial condition increment body))
        [.loop scope₃.pop.1 i c u b] scope₃.pop.2
  | each {scope scope' fresh x collection body c b} :
      isIdentifier x → (collection.compile scope).result = .ok c →
      Compiled (scope.push.declare x).2 (.body body) [.block b] scope' →
      Compiled scope (.statement fresh (.each x collection body)) [.each ⟨scope.count, x⟩ c b]
        scope'.pop.2
  | switch {scope scope' fresh subject body e b} :
      (subject.compile scope).result = .ok e → Compiled scope (.body body) [.block b] scope' →
      Compiled scope (.statement fresh (.switch subject body)) [.switch e b] scope'
  | label {scope fresh name} : (Text.trim name.toList).isEmpty = false →
      Compiled scope (.statement fresh (.label name none)) [.label name none] scope
  | guarded {scope fresh name guard e} :
      (Text.trim name.toList).isEmpty = false → (guard.compile scope).result = .ok e →
      Compiled scope (.statement fresh (.label name (some guard))) [.label name (some e)] scope
  | evaluate {scope e t} : (e.compile scope).result = .ok t →
      Compiled scope (.increment (.expr e)) [.eval t] scope
  | update {scope scope' s u} : Compiled scope (.statement false s) [u] scope' →
      Compiled scope (.increment (.statement s)) [u] scope'
  | body {scope scope' segments steps} : Compiled scope.push (.segments segments) steps scope' →
      Compiled scope (.body segments) [.block (.mk scope'.pop.1 (joinWrites steps))] scope'.pop.2
  | text {scope s} : Compiled scope (.segment (.text s)) [.write s] scope
  | emit {scope e t} : (e.compile scope).result = .ok t →
      Compiled scope (.segment (.expr e)) [.emit t] scope
  | statement {scope scope' s step} : Compiled scope (.statement false s) [step] scope' →
      Compiled scope (.segment (.statement s)) [step] scope'
  | block {scope scope' segments b} : Compiled scope (.body segments) [.block b] scope' →
      Compiled scope (.segment (.block segments)) [.block b] scope'
  | closed {scope scope' name attributes space children inTag} :
      isMarkupName name → space.toList.all Text.isBlank →
      Compiled scope (.attributes attributes) inTag scope' →
      Compiled scope (.segment (.element name attributes space true children))
        (.write ("<" ++ name) :: inTag ++ [.write space] ++ [.write "/>"]) scope'
  | element {scope scope₁ scope₂ name attributes space children inTag inside} :
      isMarkupName name → space.toList.all Text.isBlank →
      Compiled scope (.attributes attributes) inTag scope₁ →
      Compiled scope₁ (.segments children) inside scope₂ →
      Compiled scope (.segment (.element name attributes space false children))
        (.write ("<" ++ name) :: inTag ++ [.write space] ++
          .write ">" :: inside ++ [.write ("</" ++ name ++ ">")]) scope₂
  | nil {scope} : Compiled scope (.segments []) [] scope
  | cons {scope scope₁ scope₂ segment rest steps more} :
      Compiled scope (.segment segment) steps scope₁ → Compiled scope₁ (.segments rest) more scope₂ →
      Compiled scope (.segments (segment :: rest)) (steps ++ more) scope₂
  | flag {scope name} : isMarkupName name →
      Compiled scope (.attribute (.flag name)) [.write (" " ++ name)] scope
  | valued {scope scope' name value steps} : isMarkupName name →
      Compiled scope (.segments value) steps scope' →
      Compiled scope (.attribute (.valued name value))
        (.write (" " ++ name ++ "=\"") :: steps ++ [.write "\""]) scope'
  | noAttributes {scope} : Compiled scope (.attributes []) [] scope
  | moreAttributes {scope scope₁ scope₂ first rest steps more} :
      Compiled scope (.attribute first) steps scope₁ →
      Compiled scope₁ (.attributes rest) more scope₂ →
      Compiled scope (.attributes (first :: rest)) (steps ++ more) scope₂

@[simp] theorem Scope.declare_fst (scope : Scope) (x : String) : (scope.declare x).1 = ⟨scope.count, x⟩ := by
  unfold Scope.declare
  split <;> rfl

@[simp] theorem Scope.push_count (scope : Scope) : scope.push.count = scope.count := rfl

@[simp] theorem Scope.pop_count (scope : Scope) : scope.pop.2.count = scope.count := by
  unfold Scope.pop
  split <;> rfl

/-! ## The rules are complete -/

theorem checkMarkupName_ok {name segment : String} {u : Unit} :
    (checkMarkupName name segment).result = .ok u ↔ isMarkupName name := by
  unfold checkMarkupName
  split <;> simp_all

theorem checkTagSpace_ok {space segment : String} {u : Unit} :
    (checkTagSpace space segment).result = .ok u ↔ space.toList.all Text.isBlank := by
  unfold checkTagSpace
  split <;> simp_all

theorem closeBlock_ok {compiled : Traced (List Step × Scope)} {b : Block} {scope : Scope} :
    (closeBlock compiled).result = .ok (b, scope) ↔
      ∃ steps inner, compiled.result = .ok (steps, inner) ∧
        .mk inner.pop.1 (joinWrites steps) = b ∧ inner.pop.2 = scope := by
  simp [closeBlock, bind_eq_ok]

theorem body_compiled {scope scope' : Scope} {body : List Segment} {b : Block}
    (ih : ∀ steps inner, (Segment.compileAll scope.push body).result = .ok (steps, inner) →
      Compiled scope.push (.segments body) steps inner)
    (h : (closeBlock (Segment.compileAll scope.push body)).result = .ok (b, scope')) :
    Compiled scope (.body body) [.block b] scope' := by
  obtain ⟨steps, inner, hs, rfl, rfl⟩ := closeBlock_ok.1 h
  exact .body (ih steps inner hs)

theorem compileAssign_compiled {fresh : Bool} {scope scope' : Scope} {target : Target} {value : Expr}
    {step : Step} (h : (compileAssign fresh scope target value).result = .ok (step, scope')) :
    Compiled scope (.statement fresh (.assign target value)) [step] scope' := by
  cases target with
  | member parent x =>
    simp only [compileAssign, Traced.result_bind, Traced.result_pure, bind_eq_ok] at h
    obtain ⟨e, he, place, hp, heq⟩ := h
    cases heq
    exact .store he hp
  | name x =>
    simp only [compileAssign, Traced.result_bind, bind_eq_ok, checkIdentifier_ok] at h
    obtain ⟨e, he, -, hx, h⟩ := h
    split at h
    · cases h
      rw [Scope.declare_fst]
      exact .declare he hx (.inl ‹_›)
    · simp only [Traced.result_bind, Traced.result_lookup, bind_eq_ok] at h
      obtain ⟨y?, hy, h⟩ := h
      cases hy
      split at h
      · cases h
        rename_i hf _ y hy
        rw [Bool.not_eq_true] at hf
        subst hf
        exact .assign he hx hy
      · cases h
        rw [Scope.declare_fst]
        exact .declare he hx (.inr ‹_›)

mutual

theorem Statement.compiled_of_ok : ∀ (s : Statement) (fresh : Bool) (scope : Scope) (step : Step) (scope' : Scope),
    (s.compile fresh scope).result = .ok (step, scope') → Compiled scope (.statement fresh s) [step] scope'
  | .assign _ _, _, _, _, _, h => compileAssign_compiled h
  | .when _ body, _, scope, _, _, h => by
    simp only [Statement.compile, Traced.result_bind, Traced.result_pure, bind_eq_ok] at h
    obtain ⟨c, hc, ⟨b, scope₁⟩, hb, heq⟩ := h
    cases heq
    exact .when hc (body_compiled (Segment.compiledAll_of_ok body scope.push) hb)
  | .choose _ body otherwise, _, scope, _, _, h => by
    simp only [Statement.compile, Traced.result_bind, Traced.result_pure, bind_eq_ok] at h
    obtain ⟨c, hc, ⟨b, scope₁⟩, hb, ⟨o, scope₂⟩, ho, heq⟩ := h
    cases heq
    exact .choose hc (body_compiled (Segment.compiledAll_of_ok body scope.push) hb)
      (body_compiled (Segment.compiledAll_of_ok otherwise scope₁.push) ho)
  | .loop initial condition increment body, _, scope, _, _, h => by
    simp only [Statement.compile, Traced.result_bind, bind_eq_ok] at h
    obtain ⟨⟨i, scope₁⟩, hi, c, hc, h⟩ := h
    have head := Statement.compiled_of_ok initial true scope.push i scope₁ hi
    split at h
    · simp only [Traced.result_bind, Traced.result_pure, bind_eq_ok] at h
      obtain ⟨t, ht, _, hu, ⟨b, scope₃⟩, hb, heq⟩ := h
      cases hu
      cases heq
      exact .loop head hc (.evaluate ht) (body_compiled (Segment.compiledAll_of_ok body _) hb)
    · rename_i s
      simp only [Traced.result_bind, Traced.result_pure, bind_eq_ok] at h
      obtain ⟨⟨u, scope₂⟩, hu, ⟨b, scope₃⟩, hb, heq⟩ := h
      cases heq
      exact .loop head hc (.update (Statement.compiled_of_ok s false scope₁ u scope₂ hu))
        (body_compiled (Segment.compiledAll_of_ok body _) hb)
    · simp [bind_eq_ok] at h
  | .each x _ body, _, scope, _, _, h => by
    simp only [Statement.compile, Traced.result_bind, Traced.result_pure, bind_eq_ok, checkIdentifier_ok] at h
    obtain ⟨-, hx, c, hc, ⟨b, scope₁⟩, hb, heq⟩ := h
    cases heq
    exact .each hx hc (body_compiled (Segment.compiledAll_of_ok body _) hb)
  | .switch _ body, _, scope, _, _, h => by
    simp only [Statement.compile, Traced.result_bind, Traced.result_pure, bind_eq_ok] at h
    obtain ⟨c, hc, ⟨b, scope₁⟩, hb, heq⟩ := h
    cases heq
    exact .switch hc (body_compiled (Segment.compiledAll_of_ok body scope.push) hb)
  | .label name guard, _, scope, _, _, h => by
    simp only [Statement.compile] at h
    split at h
    · simp [bind_eq_ok] at h
    · rename_i hn
      rw [Bool.not_eq_true] at hn
      cases guard with
      | none =>
        cases h
        exact .label hn
      | some e =>
        simp only [Traced.result_bind, Traced.result_pure, bind_eq_ok] at h
        obtain ⟨t, ht, heq⟩ := h
        cases heq
        exact .guarded hn ht

theorem Segment.compiled_of_ok : ∀ (s : Segment) (scope : Scope) (steps : List Step) (scope' : Scope),
    (s.compile scope).result = .ok (steps, scope') → Compiled scope (.segment s) steps scope'
  | .text _, _, _, _, h => by
    cases h
    exact .text
  | .expr _, _, _, _, h => by
    simp only [Segment.compile, Traced.result_bind, Traced.result_pure, bind_eq_ok] at h
    obtain ⟨t, ht, heq⟩ := h
    cases heq
    exact .emit ht
  | .statement s, scope, _, _, h => by
    simp only [Segment.compile, Traced.result_bind, Traced.result_pure, bind_eq_ok] at h
    obtain ⟨⟨step, scope₁⟩, hs, heq⟩ := h
    cases heq
    exact .statement (Statement.compiled_of_ok s false scope step scope₁ hs)
  | .block body, scope, _, _, h => by
    simp only [Segment.compile, Traced.result_bind, Traced.result_pure, bind_eq_ok] at h
    obtain ⟨⟨b, scope₁⟩, hb, heq⟩ := h
    cases heq
    exact .block (body_compiled (Segment.compiledAll_of_ok body scope.push) hb)
  | .element name attributes space selfClosing children, scope, _, _, h => by
    simp only [Segment.compile, Traced.result_bind, bind_eq_ok, checkMarkupName_ok, checkTagSpace_ok] at h
    obtain ⟨-, hn, -, hs, ⟨inTag, scope₁⟩, ht, h⟩ := h
    have tag := Attribute.compiledAll_of_ok attributes scope inTag scope₁ ht
    cases selfClosing with
    | true =>
      cases h
      exact .closed hn hs tag
    | false =>
      simp only [Bool.false_eq_true, if_false, Traced.result_bind, Traced.result_pure, bind_eq_ok] at h
      obtain ⟨⟨inside, scope₂⟩, hi, heq⟩ := h
      cases heq
      exact .element hn hs tag (Segment.compiledAll_of_ok children scope₁ inside scope₂ hi)

theorem Segment.compiledAll_of_ok : ∀ (l : List Segment) (scope : Scope) (steps : List Step) (scope' : Scope),
    (Segment.compileAll scope l).result = .ok (steps, scope') → Compiled scope (.segments l) steps scope'
  | [], _, _, _, h => by
    cases h
    exact .nil
  | s :: rest, scope, _, _, h => by
    simp only [Segment.compileAll, Traced.result_bind, Traced.result_pure, bind_eq_ok] at h
    obtain ⟨⟨steps, scope₁⟩, hs, ⟨more, scope₂⟩, hm, heq⟩ := h
    cases heq
    exact .cons (Segment.compiled_of_ok s scope steps scope₁ hs)
      (Segment.compiledAll_of_ok rest scope₁ more scope₂ hm)

theorem Attribute.compiled_of_ok : ∀ (a : Attribute) (scope : Scope) (steps : List Step) (scope' : Scope),
    (a.compile scope).result = .ok (steps, scope') → Compiled scope (.attribute a) steps scope'
  | .flag _, _, _, _, h => by
    simp only [Attribute.compile, Traced.result_bind, Traced.result_pure, bind_eq_ok, checkMarkupName_ok] at h
    obtain ⟨-, hn, heq⟩ := h
    cases heq
    exact .flag hn
  | .valued _ value, scope, _, _, h => by
    simp only [Attribute.compile, Traced.result_bind, Traced.result_pure, bind_eq_ok, checkMarkupName_ok] at h
    obtain ⟨-, hn, ⟨steps, scope₁⟩, hs, heq⟩ := h
    cases heq
    exact .valued hn (Segment.compiledAll_of_ok value scope steps scope₁ hs)

theorem Attribute.compiledAll_of_ok : ∀ (l : List Attribute) (scope : Scope) (steps : List Step) (scope' : Scope),
    (Attribute.compileAll scope l).result = .ok (steps, scope') → Compiled scope (.attributes l) steps scope'
  | [], _, _, _, h => by
    cases h
    exact .noAttributes
  | a :: rest, scope, _, _, h => by
    simp only [Attribute.compileAll, Traced.result_bind, Traced.result_pure, bind_eq_ok] at h
    obtain ⟨⟨steps, scope₁⟩, hs, ⟨more, scope₂⟩, hm, heq⟩ := h
    cases heq
    exact .moreAttributes (Attribute.compiled_of_ok a scope steps scope₁ hs)
      (Attribute.compiledAll_of_ok rest scope₁ more scope₂ hm)

end

/-! ## The rules are sound -/

theorem ok_bind {ε α β : Type} (a : α) (f : α → Except ε β) : Except.ok a >>= f = f a := rfl

theorem Part.statement_ok {fresh : Bool} {s : Statement} {scope scope' : Scope} {step : Step} :
    ((Part.statement fresh s).compile scope).result = .ok ([step], scope') ↔
      (s.compile fresh scope).result = .ok (step, scope') := by
  simp [Part.compile, bind_eq_ok]

theorem Part.body_ok {l : List Segment} {scope scope' : Scope} {b : Block} :
    ((Part.body l).compile scope).result = .ok ([.block b], scope') ↔
      (closeBlock (Segment.compileAll scope.push l)).result = .ok (b, scope') := by
  simp [Part.compile, bind_eq_ok]

theorem Part.increment_ok {s : Statement} {scope scope' : Scope} {step : Step} :
    ((Part.increment (.statement s)).compile scope).result = .ok ([step], scope') ↔
      (s.compile false scope).result = .ok (step, scope') := by
  simp [Part.compile, bind_eq_ok]

theorem Compiled.ok {scope scope' : Scope} {part : Part} {steps : List Step}
    (h : Compiled scope part steps scope') : (part.compile scope).result = .ok (steps, scope') := by
  induction h with
  | store he hp => simp [Part.statement_ok, Statement.compile, compileAssign, he, hp, ok_bind]
  | @declare _ _ _ _ fresh he hx hf =>
    rw [Part.statement_ok]
    cases fresh with
    | true => simp [Statement.compile, compileAssign, checkIdentifier, he, hx, ok_bind]
    | false =>
      have hn := hf.resolve_left (by decide)
      simp [Statement.compile, compileAssign, checkIdentifier, he, hx, hn, ok_bind]
  | assign he hx hy => simp [Part.statement_ok, Statement.compile, compileAssign, checkIdentifier, he, hx, hy, ok_bind]
  | when hc _ hb =>
    rw [Part.body_ok] at hb
    simp [Part.statement_ok, Statement.compile, hc, hb, ok_bind]
  | choose hc _ _ hb ho =>
    rw [Part.body_ok] at hb ho
    simp [Part.statement_ok, Statement.compile, hc, hb, ho, ok_bind]
  | loop _ hc hu _ hi hu' hb =>
    rw [Part.statement_ok] at hi ⊢
    rw [Part.body_ok] at hb
    -- the two kinds of increment are told apart inside the clause for loops
    cases hu with
    | evaluate ht => simp [Statement.compile, hi, hc, ht, hb, ok_bind]
    | update _ =>
      rw [Part.increment_ok] at hu'
      simp [Statement.compile, hi, hc, hu', hb, ok_bind]
  | each hx hc _ hb =>
    rw [Part.body_ok] at hb
    simp [Part.statement_ok, Statement.compile, checkIdentifier, hx, hc, hb, ok_bind]
  | switch he _ hb =>
    rw [Part.body_ok] at hb
    simp [Part.statement_ok, Statement.compile, he, hb, ok_bind]
  | label hn => simp [Part.statement_ok, Statement.compile, hn, -List.isEmpty_iff]
  | guarded hn he => simp [Part.statement_ok, Statement.compile, hn, he, ok_bind, -List.isEmpty_iff]
  | evaluate ht => simp [Part.compile, ht, ok_bind]
  | update _ hs =>
    rw [Part.statement_ok] at hs
    rwa [Part.increment_ok]
  | body _ hs =>
    rw [Part.body_ok]
    exact closeBlock_ok.2 ⟨_, _, hs, rfl, rfl⟩
  | text => rfl
  | emit ht => simp [Part.compile, Segment.compile, ht, ok_bind]
  | statement _ hs =>
    rw [Part.statement_ok] at hs
    simp [Part.compile, Segment.compile, hs, ok_bind]
  | block _ hb =>
    rw [Part.body_ok] at hb
    simp [Part.compile, Segment.compile, hb, ok_bind]
  | closed hn hs _ ht =>
    simp only [Part.compile] at ht ⊢
    simp [Segment.compile, checkMarkupName, checkTagSpace, hn, hs, ht, ok_bind]
  | element hn hs _ _ ht hi =>
    simp only [Part.compile] at ht hi ⊢
    simp [Segment.compile, checkMarkupName, checkTagSpace, hn, hs, ht, hi, ok_bind]
  | nil => rfl
  | cons _ _ hs hr =>
    simp only [Part.compile] at hs hr ⊢
    simp [Segment.compileAll, hs, hr, ok_bind]
  | flag hn => simp [Part.compile, Attribute.compile, checkMarkupName, hn, ok_bind]
  | valued hn _ hs =>
    simp only [Part.compile] at hs ⊢
    simp [Attribute.compile, checkMarkupName, hn, hs, ok_bind]
  | noAttributes => rfl
  | moreAttributes _ _ hs hr =>
    simp only [Part.compile] at hs hr ⊢
    simp [Attribute.compileAll, hs, hr, ok_bind]

theorem Compiled.append {scope scope₁ scope₂ : Scope} {a b : List Segment} {steps more : List Step}
    (ha : Compiled scope (.segments a) steps scope₁) (hb : Compiled scope₁ (.segments b) more scope₂) :
    Compiled scope (.segments (a ++ b)) (steps ++ more) scope₂ := by
  induction a generalizing scope steps with
  | nil =>
    cases ha
    exact hb
  | cons s a ih =>
    cases ha with
    | cons hs hr =>
      rw [List.append_assoc]
      exact .cons hs (ih hr)

/-- A program is compiled from a template just when the rules give it. -/
theorem compile_ok_iff {segments : List Segment} {program : Program} :
    (compile segments).result = .ok program ↔
      ∃ steps scope, Compiled Scope.empty.push (.segments segments) steps scope ∧
        program = ⟨.mk scope.pop.1 (joinWrites steps), scope.count⟩ := by
  simp only [compile, Traced.result_bind, Traced.result_pure, bind_eq_ok]
  constructor
  · rintro ⟨⟨b, scope⟩, hb, heq⟩
    obtain ⟨steps, inner, hs, rfl, rfl⟩ := closeBlock_ok.1 hb
    cases heq
    exact ⟨steps, inner, Segment.compiledAll_of_ok segments _ steps inner hs, by rw [Scope.pop_count]⟩
  · rintro ⟨steps, scope, h, rfl⟩
    exact ⟨_, closeBlock_ok.2 ⟨steps, scope, h.ok, rfl, rfl⟩, by rw [Scope.pop_count]⟩

end Stencil
