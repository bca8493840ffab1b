import Stencil.Proofs.Compiled
import Stencil.Proofs.Runs
/-!
# Binders of compiled programs

Declarations and loop variables bind names to slots. `Step.Resolved` says, of a program alone, that
every use of a variable means the innermost binder of its name and that a name of the model has none.
Compiling hands out the slots one by one (`Compiled.introduced`), resets in each frame what the frame
declares (`Compiled.localsExact`) and resolves every name (`Compiled.resolved`).
-/

namespace Stencil

/-! ## What a program binds -/

/-- The variable that a step declares in the frame it stands in. -/
def Step.declared : Step → List Local
  | .declare x _ => [x]
  | _ => []

/-- The variables that steps declare in their frame, in order. -/
def Step.declaredAll (steps : List Step) : List Local := steps.flatMap Step.declared

mutual

/-- The slots that declarations and loop variables introduce, in the order in which they stand. -/
def Step.introduced : Step → List Nat
  | .declare x _ => [x.slot]
  | .block body | .when _ body | .switch _ body => body.introduced
  | .choose _ body otherwise => body.introduced ++ otherwise.introduced
  | .loop _ initial _ update body => initial.introduced ++ update.introduced ++ body.introduced
  | .each x _ body => x.slot :: body.introduced
  | _ => []

def Block.introduced : Block → List Nat
  | .mk _ steps => Step.introducedAll steps

def Step.introducedAll : List Step → List Nat
  | [] => []
  | step :: rest => step.introduced ++ Step.introducedAll rest

end

mutual

/-- Every block and every loop head resets just the slots declared in its own frame, in order. -/
def Step.LocalsExact : Step → Prop
  | .block body | .when _ body | .switch _ body | .each _ _ body => body.LocalsExact
  | .choose _ body otherwise => body.LocalsExact ∧ otherwise.LocalsExact
  | .loop locals initial _ update body =>
    locals = (Step.declaredAll [initial, update]).map Local.slot ∧
      initial.LocalsExact ∧ update.LocalsExact ∧ body.LocalsExact
  | _ => True

def Block.LocalsExact : Block → Prop
  | .mk locals steps =>
    locals = (Step.declaredAll steps).map Local.slot ∧ Step.LocalsExactAll steps

def Step.LocalsExactAll : List Step → Prop
  | [] => True
  | step :: rest => step.LocalsExact ∧ Step.LocalsExactAll rest

end

/-! ## What a program uses -/

/-- The innermost binder of the name, in binders that stand innermost first. -/
def innermost? (binders : List Local) (name : String) : Option Local := binders.find? (·.name == name)

mutual

/-- Every variable means the innermost binder of its name; names of the model have no binder. -/
def Term.Resolved (binders : List Local) : Term → Prop
  | .const _ => True
  | .variable x | .update _ x => innermost? binders x.name = some x
  | .model name => innermost? binders name = none
  | .member target _ => target.Resolved binders
  | .index target position => target.Resolved binders ∧ position.Resolved binders
  | .call target _ args => target.Resolved binders ∧ Term.ResolvedArgs binders args
  | .unary _ operand => operand.Resolved binders
  | .binary _ left right => left.Resolved binders ∧ right.Resolved binders
  | .conditional condition ifTrue ifFalse =>
    condition.Resolved binders ∧ ifTrue.Resolved binders ∧ ifFalse.Resolved binders

def Term.ResolvedArgs (binders : List Local) : List Term → Prop
  | [] => True
  | e :: rest => e.Resolved binders ∧ Term.ResolvedArgs binders rest

end

def Root.Resolved (binders : List Local) : Root → Prop
  | .variable x => innermost? binders x.name = some x
  | .model name => innermost? binders name = none

mutual

/--
Steps see the binders around them and the earlier declarations of their own frame. The head of a loop
binds in the order of its initial step and its update, the condition in between.
-/
def Step.Resolved (binders : List Local) : Step → Prop
  | .write _ => True
  | .emit e | .declare _ e | .eval e => e.Resolved binders
  | .assign x e => innermost? binders x.name = some x ∧ e.Resolved binders
  | .store place e => place.root.Resolved binders ∧ e.Resolved binders
  | .block body => body.Resolved binders
  | .when condition body => condition.Resolved binders ∧ body.Resolved binders
  | .choose condition body otherwise =>
    condition.Resolved binders ∧ body.Resolved binders ∧ otherwise.Resolved binders
  | .loop _ initial condition update body =>
    initial.Resolved binders ∧ condition.Resolved (initial.declared ++ binders) ∧
      update.Resolved (initial.declared ++ binders) ∧
      body.Resolved (update.declared ++ (initial.declared ++ binders))
  | .each x collection body => collection.Resolved binders ∧ body.Resolved (x :: binders)
  | .switch subject body => subject.Resolved binders ∧ body.Resolved binders
  | .label _ guard =>
    match guard with
    | some e => e.Resolved binders
    | none => True

def Block.Resolved (binders : List Local) : Block → Prop
  | .mk _ steps => Step.ResolvedAll binders steps

def Step.ResolvedAll (binders : List Local) : List Step → Prop
  | [] => True
  | step :: rest => step.Resolved binders ∧ Step.ResolvedAll (step.declared ++ binders) rest

end

/-! ## Joining writes and steps -/

/-- What ignores writes does not change when they are joined. -/
theorem joinWrites_eq {β : Type} (f : List Step → β) (hw : ∀ s rest, f (.write s :: rest) = f rest)
    (hc : ∀ step a b, f a = f b → f (step :: a) = f (step :: b)) (steps : List Step) :
    f (joinWrites steps) = f steps := by
  fun_induction joinWrites steps with
  | case1 => rfl
  | case2 s rest t joined h ih => rw [hw, hw, ← ih, h, hw]
  | case3 rest _ ih => rw [hw, ih]
  | case4 s rest _ _ ih => rw [hw, hw, ih]
  | case5 step rest _ ih => exact hc _ _ _ ih

@[simp] theorem introducedAll_append (a b : List Step) :
    Step.introducedAll (a ++ b) = Step.introducedAll a ++ Step.introducedAll b := by
  induction a with
  | nil => rfl
  | cons step a ih => simp [Step.introducedAll, ih]

@[simp] theorem localsExactAll_append (a b : List Step) :
    Step.LocalsExactAll (a ++ b) ↔ Step.LocalsExactAll a ∧ Step.LocalsExactAll b := by
  induction a with
  | nil => simp [Step.LocalsExactAll]
  | cons step a ih => simp [Step.LocalsExactAll, ih, and_assoc]

@[simp] theorem declaredAll_append (a b : List Step) :
    Step.declaredAll (a ++ b) = Step.declaredAll a ++ Step.declaredAll b := by
  simp [Step.declaredAll]

@[simp] theorem declaredAll_cons (step : Step) (rest : List Step) :
    Step.declaredAll (step :: rest) = step.declared ++ Step.declaredAll rest := by
  simp [Step.declaredAll]

@[simp] theorem declaredAll_nil : Step.declaredAll [] = [] := rfl

@[simp] theorem declared_reverse (step : Step) : step.declared.reverse = step.declared := by
  cases step <;> rfl

@[simp] theorem resolvedAll_append (binders : List Local) (a b : List Step) :
    Step.ResolvedAll binders (a ++ b) ↔
      Step.ResolvedAll binders a ∧ Step.ResolvedAll ((Step.declaredAll a).reverse ++ binders) b := by
  induction a generalizing binders with
  | nil => simp [Step.ResolvedAll]
  | cons step a ih =>
    simp [Step.ResolvedAll, ih, and_assoc]

theorem introducedAll_joinWrites (steps : List Step) :
    Step.introducedAll (joinWrites steps) = Step.introducedAll steps := by
  refine joinWrites_eq Step.introducedAll (fun s rest => rfl) (fun step a b h => ?_) steps
  simp [Step.introducedAll, h]

theorem declaredAll_joinWrites (steps : List Step) :
    Step.declaredAll (joinWrites steps) = Step.declaredAll steps := by
  refine joinWrites_eq Step.declaredAll (fun s rest => rfl) (fun step a b h => ?_) steps
  simp [h]

theorem localsExactAll_joinWrites (steps : List Step) :
    Step.LocalsExactAll (joinWrites steps) = Step.LocalsExactAll steps := by
  refine joinWrites_eq Step.LocalsExactAll (fun s rest => ?_) (fun step a b h => ?_) steps
  · simp [Step.LocalsExactAll, Step.LocalsExact]
  · simp [Step.LocalsExactAll, h]

theorem everyAll_append {term : Term → Prop} {slot : Nat → Prop} {place : Place → Prop} (a b : List Step) :
    Step.EveryAll term slot place (a ++ b) ↔ Step.EveryAll term slot place a ∧ Step.EveryAll term slot place b := by
  induction a with
  | nil => simp [Step.EveryAll]
  | cons step a ih => simp [Step.EveryAll, ih, and_assoc]

theorem everyAll_joinWrites (term : Term → Prop) (slot : Nat → Prop) (place : Place → Prop) (steps : List Step) :
    Step.EveryAll term slot place (joinWrites steps) = Step.EveryAll term slot place steps := by
  refine joinWrites_eq (Step.EveryAll term slot place) (fun s rest => ?_) (fun step a b h => ?_) steps
  · simp [Step.EveryAll, Step.Every]
  · simp [Step.EveryAll, h]

theorem resolvedAll_joinWrites (steps : List Step) (binders : List Local) :
    Step.ResolvedAll binders (joinWrites steps) = Step.ResolvedAll binders steps := by
  -- the binders change from step to step, so the function of the binders is what is kept
  refine congrFun (joinWrites_eq (fun steps binders => Step.ResolvedAll binders steps) (fun s rest => ?_)
    (fun step a b h => ?_) steps) binders
  · funext binders
    simp [Step.ResolvedAll, Step.Resolved, Step.declared]
  · funext binders
    simp [Step.ResolvedAll, fun binders => congrFun h binders]

/-! ## Frames -/

theorem resolve?_eq_innermost? (scope : Scope) (name : String) :
    scope.resolve? name = innermost? scope.frames.flatten name := by
  simp [Scope.resolve?, innermost?]

@[simp] theorem push_binders (scope : Scope) : scope.push.frames.flatten = scope.frames.flatten := rfl

theorem pop_of_frames {scope : Scope} {frame : List Local} {outer : List (List Local)}
    (h : scope.frames = frame :: outer) :
    scope.pop.1 = (frame.map Local.slot).reverse ∧ scope.pop.2.frames = outer := by
  simp [Scope.pop, h]

theorem declare_frames {scope : Scope} {frame : List Local} {outer : List (List Local)} (x : String)
    (h : scope.frames = frame :: outer) :
    (scope.declare x).2.frames = (⟨scope.count, x⟩ :: frame) :: outer := by
  simp [Scope.declare, h]

theorem declare_binders (scope : Scope) (x : String) :
    (scope.declare x).2.frames.flatten = ⟨scope.count, x⟩ :: scope.frames.flatten := by
  unfold Scope.declare
  split <;> simp_all

@[simp] theorem declare_count (scope : Scope) (x : String) :
    (scope.declare x).2.count = scope.count + 1 := by
  unfold Scope.declare
  split <;> rfl

/-- A part adds the variables that it declares to the innermost frame and leaves the others alone. -/
theorem Compiled.frames {scope scope' : Scope} {part : Part} {steps : List Step}
    (h : Compiled scope part steps scope') {frame : List Local} {outer : List (List Local)}
    (hf : scope.frames = frame :: outer) :
    scope'.frames = ((Step.declaredAll steps).reverse ++ frame) :: outer := by
  induction h generalizing frame outer with
  | store | assign | label | guarded | evaluate | text | emit | nil | flag | noAttributes =>
    simpa [Step.declared] using hf
  | declare => simpa [Step.declared] using declare_frames _ hf
  | when _ _ ih | switch _ _ ih | block _ ih | statement _ ih | update _ ih =>
    simpa [Step.declared] using ih hf
  | choose _ _ _ ihb iho => simpa [Step.declared] using iho (ihb hf)
  | loop _ _ _ _ ihi ihu ihb =>
    -- what the head declares goes with the frame that the loop closes
    simpa [Step.declared] using (pop_of_frames (ihb (ihu (ihi rfl)))).2.trans hf
  | each _ _ _ ih => simpa [Step.declared] using (pop_of_frames (ih rfl)).2.trans hf
  | body _ ih => simpa [Step.declared] using (pop_of_frames (ih rfl)).2.trans hf
  | closed _ _ _ ih => simpa [Step.declared] using ih hf
  | element _ _ _ _ iha ihc => simpa [Step.declared] using ihc (iha hf)
  | cons _ _ ihs ihr | moreAttributes _ _ ihs ihr => simpa [Step.declared] using ihr (ihs hf)
  | valued _ _ ih => simpa [Step.declared] using ih hf

theorem Compiled.binders {scope scope' : Scope} {part : Part} {steps : List Step}
    (h : Compiled scope part steps scope') {frame : List Local} {outer : List (List Local)}
    (hf : scope.frames = frame :: outer) :
    scope'.frames.flatten = (Step.declaredAll steps).reverse ++ scope.frames.flatten := by
  rw [h.frames hf, hf]
  simp

/-! ## Slots are introduced one by one -/

/-- The slots are those from `first` up to `next`, in order. -/
def Consecutive (first : Nat) (slots : List Nat) (next : Nat) : Prop :=
  ∃ n, next = first + n ∧ slots = List.range' first n

theorem Consecutive.nil (first : Nat) : Consecutive first [] first := ⟨0, rfl, rfl⟩

theorem Consecutive.append {first middle next : Nat} {a b : List Nat} (ha : Consecutive first a middle)
    (hb : Consecutive middle b next) : Consecutive first (a ++ b) next := by
  obtain ⟨n, rfl, rfl⟩ := ha
  obtain ⟨m, rfl, rfl⟩ := hb
  exact ⟨n + m, by omega, List.range'_append_1⟩

theorem Consecutive.cons {first next : Nat} {slots : List Nat} (h : Consecutive (first + 1) slots next) :
    Consecutive first (first :: slots) next :=
  Consecutive.append (a := [first]) ⟨1, rfl, rfl⟩ h

theorem Consecutive.le {first next : Nat} {slots : List Nat} (h : Consecutive first slots next) :
    first ≤ next := by
  obtain ⟨n, rfl, -⟩ := h
  omega

theorem Consecutive.mem {first next slot : Nat} {slots : List Nat} (h : Consecutive first slots next) :
    slot ∈ slots ↔ first ≤ slot ∧ slot < next := by
  obtain ⟨n, rfl, rfl⟩ := h
  rw [List.mem_range'_1]

/-- A part introduces the slots that the scope hands out while it is compiled. -/
theorem Compiled.introduced {scope scope' : Scope} {part : Part} {steps : List Step}
    (h : Compiled scope part steps scope') :
    Consecutive scope.count (Step.introducedAll steps) scope'.count := by
  induction h with
  | store | assign | label | guarded | evaluate | text | emit | nil | flag | noAttributes => exact .nil _
  | declare =>
    simpa [Step.introducedAll, Step.introduced] using (Consecutive.nil _).cons
  | when _ _ ih | switch _ _ ih | block _ ih | statement _ ih | update _ ih =>
    simpa [Step.introducedAll, Step.introduced] using ih
  | choose _ _ _ ihb iho =>
    simpa [Step.introducedAll, Step.introduced] using ihb.append iho
  | loop _ _ _ _ ihi ihu ihb =>
    simpa [Step.introducedAll, Step.introduced] using ihi.append (ihu.append ihb)
  | each _ _ _ ih =>
    simp only [declare_count, Scope.push_count] at ih
    simpa [Step.introducedAll, Step.introduced] using ih.cons
  | body _ ih =>
    simpa [Step.introducedAll, Step.introduced, Block.introduced, introducedAll_joinWrites] using ih
  | closed _ _ _ ih => simpa [Step.introducedAll, Step.introduced] using ih
  | element _ _ _ _ iha ihc => simpa [Step.introducedAll, Step.introduced] using iha.append ihc
  | cons _ _ ihs ihr | moreAttributes _ _ ihs ihr => simpa using ihs.append ihr
  | valued _ _ ih => simpa [Step.introducedAll, Step.introduced] using ih

/-! ## Frames are reset exactly -/

theorem closed_localsExact {scope scope' : Scope} {segments : List Segment} {steps : List Step}
    (h : Compiled scope.push (.segments segments) steps scope') (hs : Step.LocalsExactAll steps) :
    (Block.mk scope'.pop.1 (joinWrites steps)).LocalsExact := by
  have hl := (pop_of_frames (h.frames rfl)).1
  simp only [Block.LocalsExact, localsExactAll_joinWrites, declaredAll_joinWrites]
  exact ⟨by simpa using hl, hs⟩

theorem Compiled.localsExact {scope scope' : Scope} {part : Part} {steps : List Step}
    (h : Compiled scope part steps scope') {frame : List Local} {outer : List (List Local)}
    (hf : scope.frames = frame :: outer) : Step.LocalsExactAll steps := by
  induction h generalizing frame outer with
  | store | assign | declare | label | guarded | evaluate | text | emit | nil | flag | noAttributes =>
    simp [Step.LocalsExactAll, Step.LocalsExact]
  | when _ _ ih | switch _ _ ih | block _ ih | statement _ ih | update _ ih =>
    simpa [Step.LocalsExactAll, Step.LocalsExact] using ih hf
  | choose _ hb _ ihb iho =>
    simpa [Step.LocalsExactAll, Step.LocalsExact] using And.intro (ihb hf) (iho (hb.frames hf))
  | loop hi _ hu hb ihi ihu ihb =>
    have hi' := hi.frames rfl
    have hu' := hu.frames hi'
    have hb' := hb.frames hu'
    have hl := (pop_of_frames hb').1
    simp only [Step.LocalsExactAll, Step.LocalsExact, and_true] at ihi ihu ihb ⊢
    refine ⟨?_, ihi rfl, ihu hi', ihb hu'⟩
    simpa [Step.declared] using hl
  | each _ _ _ ih => simpa [Step.LocalsExactAll, Step.LocalsExact] using ih rfl
  | body hs ih => exact ⟨closed_localsExact hs (ih rfl), trivial⟩
  | closed _ _ _ ih => simpa [Step.LocalsExactAll, Step.LocalsExact] using ih hf
  | element _ _ ha _ iha ihc =>
    simpa [Step.LocalsExactAll, Step.LocalsExact] using And.intro (iha hf) (ihc (ha.frames hf))
  | cons hs _ ihs ihr | moreAttributes hs _ ihs ihr => simpa using And.intro (ihs hf) (ihr (hs.frames hf))
  | valued _ _ ih => simpa [Step.LocalsExactAll, Step.LocalsExact] using ih hf

/-! ## Names are resolved -/

theorem innermost?_self {binders : List Local} {name : String} {x : Local}
    (h : innermost? binders name = some x) : innermost? binders x.name = some x := by
  have hx : x.name = name := by simpa using List.find?_some h
  rw [hx, h]

theorem resolve?_self {scope : Scope} {name : String} {x : Local} (h : scope.resolve? name = some x) :
    innermost? scope.frames.flatten x.name = some x :=
  innermost?_self (resolve?_eq_innermost? scope name ▸ h)

theorem term_resolved (scope : Scope) (x : String) : (scope.term x).Resolved scope.frames.flatten := by
  unfold Scope.term
  cases hx : scope.resolve? x with
  | none => simpa [Term.Resolved, resolve?_eq_innermost?] using hx
  | some y => exact resolve?_self hx

theorem root_resolved (scope : Scope) (x : String) : (scope.root x).Resolved scope.frames.flatten := by
  unfold Scope.root
  cases hx : scope.resolve? x with
  | none => simpa [Root.Resolved, resolve?_eq_innermost?] using hx
  | some y => exact resolve?_self hx

mutual

theorem Expr.compile_resolved {scope : Scope} : ∀ {e : Expr} {t : Term},
    (e.compile scope).result = .ok t → t.Resolved scope.frames.flatten
  | .literal _, _, h => by
    obtain ⟨v, -, rfl⟩ := literal_compile_ok.1 h
    trivial
  | .name x, _, h => by
    obtain ⟨-, rfl⟩ := name_compile_ok.1 h
    exact term_resolved scope x
  | .member _ _, _, h => by
    obtain ⟨-, e, he, rfl⟩ := member_compile_ok.1 h
    exact (Expr.compile_resolved he : e.Resolved _)
  | .index _ _, _, h => by
    obtain ⟨e, i, he, hi, rfl⟩ := index_compile_ok.1 h
    exact ⟨Expr.compile_resolved he, Expr.compile_resolved hi⟩
  | .call _ _ _, _, h => by
    obtain ⟨-, e, es, he, hes, rfl⟩ := call_compile_ok.1 h
    exact ⟨Expr.compile_resolved he, Expr.compileArgs_resolved hes⟩
  | .unary _ _, _, h => by
    rcases unary_compile_ok.1 h with ⟨op, e, -, he, rfl⟩ | ⟨op, x, y, -, rfl, -, hy, rfl⟩
    · exact (Expr.compile_resolved he : e.Resolved _)
    · exact resolve?_self hy
  | .binary _ _ _, _, h => by
    obtain ⟨op, l, r, -, hl, hr, rfl⟩ := binary_compile_ok.1 h
    exact ⟨Expr.compile_resolved hl, Expr.compile_resolved hr⟩
  | .conditional _ _ _, _, h => by
    obtain ⟨c, a, b, hc, ha, hb, rfl⟩ := conditional_compile_ok.1 h
    exact ⟨Expr.compile_resolved hc, Expr.compile_resolved ha, Expr.compile_resolved hb⟩

theorem Expr.compileArgs_resolved {scope : Scope} : ∀ {es : List Expr} {ts : List Term},
    (Expr.compileArgs scope es).result = .ok ts → Term.ResolvedArgs scope.frames.flatten ts
  | [], _, h => by
    cases h
    trivial
  | _ :: _, _, h => by
    obtain ⟨t, more, ht, hm, rfl⟩ := compileArgs_cons_ok.1 h
    exact ⟨Expr.compile_resolved ht, Expr.compileArgs_resolved hm⟩

end

/-- A part of a template resolves every name as the scope around it does. -/
theorem Compiled.resolved {scope scope' : Scope} {part : Part} {steps : List Step}
    (h : Compiled scope part steps scope') {frame : List Local} {outer : List (List Local)}
    (hf : scope.frames = frame :: outer) : Step.ResolvedAll scope.frames.flatten steps := by
  induction h generalizing frame outer with
  | store he hp =>
    obtain ⟨root, path, -, -, rfl⟩ := compilePlace_ok.1 hp
    exact ⟨⟨root_resolved _ root, Expr.compile_resolved he⟩, trivial⟩
  | declare he | guarded _ he | evaluate he | emit he => exact ⟨Expr.compile_resolved he, trivial⟩
  | assign he _ hy => exact ⟨⟨resolve?_self hy, Expr.compile_resolved he⟩, trivial⟩
  | when hc _ ih | switch hc _ ih => exact ⟨⟨Expr.compile_resolved hc, (ih hf).1⟩, trivial⟩
  | choose hc hb _ ihb iho =>
    have ho := (iho (hb.frames hf)).1
    rw [hb.binders hf] at ho
    exact ⟨⟨Expr.compile_resolved hc, (ihb hf).1, ho⟩, trivial⟩
  | loop hi hc hu hb ihi ihu ihb =>
    have hi' := hi.frames rfl
    have hu' := hu.frames hi'
    -- the condition and the update stand after the first declaration of the head and before the second
    have ri := (ihi rfl).1
    have rc := Expr.compile_resolved hc
    have ru := (ihu hi').1
    have rb := (ihb hu').1
    rw [hu.binders hi'] at rb
    rw [hi.binders rfl] at rc ru rb
    simp only [declaredAll_cons, declaredAll_nil, List.append_nil, declared_reverse, push_binders]
      at ri rc ru rb
    exact ⟨⟨ri, rc, ru, rb⟩, trivial⟩
  | each _ hc _ ih => exact ⟨⟨Expr.compile_resolved hc, (ih rfl).1⟩, trivial⟩
  | label | text | flag => exact ⟨trivial, trivial⟩
  | update _ ih | statement _ ih | block _ ih => exact ih hf
  | body hs ih =>
    simpa [Step.ResolvedAll, Step.Resolved, Block.Resolved, resolvedAll_joinWrites] using ih rfl
  | closed _ _ _ ih => simpa [Step.ResolvedAll, Step.Resolved, Step.declared] using ih hf
  | element _ _ ha _ iha ihc =>
    have rc := ihc (ha.frames hf)
    rw [ha.binders hf] at rc
    simpa [Step.ResolvedAll, Step.Resolved, Step.declared] using And.intro (iha hf) rc
  | nil | noAttributes => trivial
  | cons hs _ ihs ihr | moreAttributes hs _ ihs ihr =>
    have rr := ihr (hs.frames hf)
    rw [hs.binders hf] at rr
    exact (resolvedAll_append _ _ _).2 ⟨ihs hf, rr⟩
  | valued _ _ ih => simpa [Step.ResolvedAll, Step.Resolved, Step.declared] using ih hf

/-! ## Slots in range -/

section InRange
variable {n : Nat}

theorem innermost?_lt {binders : List Local} {name : String} {x : Local} (hb : ∀ y ∈ binders, y.slot < n)
    (h : innermost? binders name = some x) : x.slot < n :=
  hb x (List.mem_of_find?_eq_some h)

mutual

theorem Term.every_of_resolved {binders : List Local} {P : Local → Prop} (hb : ∀ x ∈ binders, P x) :
    ∀ e : Term, e.Resolved binders → e.Every P P
  | .const _, _ | .model _, _ => trivial
  | .variable x, h => hb x (List.mem_of_find?_eq_some h)
  | .update _ x, h => ⟨hb x (List.mem_of_find?_eq_some h), hb x (List.mem_of_find?_eq_some h)⟩
  | .member e _, h | .unary _ e, h => Term.every_of_resolved hb e h
  | .index a b, h | .binary _ a b, h => ⟨Term.every_of_resolved hb a h.1, Term.every_of_resolved hb b h.2⟩
  | .call e _ args, h => ⟨Term.every_of_resolved hb e h.1, Term.everyArg_of_resolved hb args h.2⟩
  | .conditional c a b, h =>
    ⟨Term.every_of_resolved hb c h.1, Term.every_of_resolved hb a h.2.1, Term.every_of_resolved hb b h.2.2⟩

theorem Term.everyArg_of_resolved {binders : List Local} {P : Local → Prop} (hb : ∀ x ∈ binders, P x) :
    ∀ es : List Term, Term.ResolvedArgs binders es → Term.EveryArg P P es
  | [], _ => trivial
  | e :: rest, h => ⟨Term.every_of_resolved hb e h.1, Term.everyArg_of_resolved hb rest h.2⟩

end

theorem Term.inRange_of_resolved {binders : List Local} (hb : ∀ x ∈ binders, x.slot < n) (e : Term)
    (h : e.Resolved binders) : e.InRange n :=
  Term.every_of_resolved hb e h

theorem Place.inRange_of_resolved {binders : List Local} (hb : ∀ x ∈ binders, x.slot < n) {place : Place}
    (h : place.root.Resolved binders) : place.InRange n := by
  obtain ⟨x | name, path⟩ := place
  · exact innermost?_lt hb h
  · trivial

theorem Step.declared_introduced {step : Step} {x : Local} (h : x ∈ step.declared) :
    x.slot ∈ step.introduced := by
  cases step <;> simp_all [Step.declared, Step.introduced]

theorem Step.declaredAll_introduced {steps : List Step} {x : Local} (h : x ∈ Step.declaredAll steps) :
    x.slot ∈ Step.introducedAll steps := by
  induction steps with
  | nil => simp at h
  | cons step rest ih =>
    simp only [declaredAll_cons, List.mem_append] at h
    simp only [Step.introducedAll, List.mem_append]
    exact h.imp Step.declared_introduced ih

theorem declared_lt {binders : List Local} {step : Step} (hb : ∀ x ∈ binders, x.slot < n)
    (hi : ∀ s ∈ step.introduced, s < n) : ∀ x ∈ step.declared ++ binders, x.slot < n := by
  intro x hx
  rcases List.mem_append.1 hx with hx | hx
  · exact hi _ (Step.declared_introduced hx)
  · exact hb x hx

theorem locals_lt {steps : List Step} (hi : ∀ s ∈ Step.introducedAll steps, s < n) :
    ∀ s ∈ (Step.declaredAll steps).map Local.slot, s < n := by
  intro s hs
  obtain ⟨x, hx, rfl⟩ := List.mem_map.1 hs
  exact hi _ (Step.declaredAll_introduced hx)

mutual

/-- What a program uses it introduces, so its slots are in range when those that it introduces are. -/
theorem Step.inRange_of_resolved {binders : List Local} (hb : ∀ x ∈ binders, x.slot < n) :
    ∀ step : Step, step.Resolved binders → step.LocalsExact → (∀ s ∈ step.introduced, s < n) →
      step.Every (Term.InRange n) (· < n) (Place.InRange n)
  | .write _, _, _, _ | .label _ none, _, _, _ => trivial
  | .emit e, h, _, _ | .eval e, h, _, _ | .label _ (some e), h, _, _ => Term.inRange_of_resolved hb e h
  | .declare _ e, h, _, hi => ⟨hi _ (by simp [Step.introduced]), Term.inRange_of_resolved hb e h⟩
  | .assign _ e, h, _, _ => ⟨innermost?_lt hb h.1, Term.inRange_of_resolved hb e h.2⟩
  | .store _ e, h, _, _ => ⟨Place.inRange_of_resolved hb h.1, Term.inRange_of_resolved hb e h.2⟩
  | .block b, h, hl, hi => Block.inRange_of_resolved hb b h hl hi
  | .when e b, h, hl, hi | .switch e b, h, hl, hi =>
    ⟨Term.inRange_of_resolved hb e h.1, Block.inRange_of_resolved hb b h.2 hl hi⟩
  | .choose c b o, h, hl, hi => by
    simp only [Step.introduced, List.mem_append] at hi
    exact ⟨Term.inRange_of_resolved hb c h.1,
      Block.inRange_of_resolved hb b h.2.1 hl.1 fun s hs => hi s (.inl hs),
      Block.inRange_of_resolved hb o h.2.2 hl.2 fun s hs => hi s (.inr hs)⟩
  | .loop locals initial condition update body, h, hl, hi => by
    obtain ⟨ri, rc, ru, rb⟩ := h
    obtain ⟨rfl, li, lu, lb⟩ := hl
    simp only [Step.introduced, List.mem_append, or_assoc] at hi
    have hi₁ : ∀ s ∈ initial.introduced, s < n := fun s hs => hi s (.inl hs)
    have hi₂ : ∀ s ∈ update.introduced, s < n := fun s hs => hi s (.inr (.inl hs))
    have hb₁ := declared_lt hb hi₁
    have hb₂ := declared_lt hb₁ hi₂
    refine ⟨locals_lt fun s hs => ?_, Step.inRange_of_resolved hb initial ri li hi₁,
      Term.inRange_of_resolved hb₁ condition rc, Step.inRange_of_resolved hb₁ update ru lu hi₂,
      Block.inRange_of_resolved hb₂ body rb lb fun s hs => hi s (.inr (.inr hs))⟩
    simp only [Step.introducedAll, List.append_nil, List.mem_append] at hs
    exact hs.elim (hi₁ s) (hi₂ s)
  | .each x e b, h, hl, hi => by
    simp only [Step.introduced, List.mem_cons] at hi
    have hx : x.slot < n := hi _ (.inl rfl)
    refine ⟨hx, Term.inRange_of_resolved hb e h.1, Block.inRange_of_resolved ?_ b h.2 hl fun s hs => hi s (.inr hs)⟩
    intro y hy
    rcases List.mem_cons.1 hy with rfl | hy
    · exact hx
    · exact hb y hy

theorem Block.inRange_of_resolved {binders : List Local} (hb : ∀ x ∈ binders, x.slot < n) :
    ∀ b : Block, b.Resolved binders → b.LocalsExact → (∀ s ∈ b.introduced, s < n) → b.InRange n
  | .mk _ steps, h, hl, hi => by
    obtain ⟨rfl, hl⟩ := hl
    exact ⟨locals_lt hi, Step.inRangeAll_of_resolved hb steps h hl hi⟩

theorem Step.inRangeAll_of_resolved {binders : List Local} (hb : ∀ x ∈ binders, x.slot < n) :
    ∀ steps : List Step, Step.ResolvedAll binders steps → Step.LocalsExactAll steps →
      (∀ s ∈ Step.introducedAll steps, s < n) → Step.EveryAll (Term.InRange n) (· < n) (Place.InRange n) steps
  | [], _, _, _ => trivial
  | step :: rest, h, hl, hi => by
    simp only [Step.introducedAll, List.mem_append] at hi
    have hi₁ : ∀ s ∈ step.introduced, s < n := fun s hs => hi s (.inl hs)
    exact ⟨Step.inRange_of_resolved hb step h.1 hl.1 hi₁,
      Step.inRangeAll_of_resolved (declared_lt hb hi₁) rest h.2 hl.2 fun s hs => hi s (.inr hs)⟩

end

/-- The slots of a part are those of the scope around it and those handed out for it. -/
theorem Compiled.inRange {scope scope' : Scope} {part : Part} {steps : List Step}
    (h : Compiled scope part steps scope') (hb : ∀ x ∈ scope.frames.flatten, x.slot < scope.count)
    {frame : List Local} {outer : List (List Local)} (hf : scope.frames = frame :: outer) :
    Step.EveryAll (Term.InRange scope'.count) (· < scope'.count) (Place.InRange scope'.count) steps := by
  have hi := h.introduced
  refine Step.inRangeAll_of_resolved (fun x hx => ?_) steps (h.resolved hf) (h.localsExact hf) fun s hs => ?_
  · exact Nat.lt_of_lt_of_le (hb x hx) hi.le
  · exact (hi.mem.1 hs).2

end InRange

/-! ## Programs of templates -/

section Compile
variable {segments : List Segment} {program : Program}

theorem compile_introduced (h : (compile segments).result = .ok program) :
    program.body.introduced = List.range program.slots := by
  obtain ⟨steps, scope, hs, rfl⟩ := compile_ok_iff.1 h
  obtain ⟨n, hn, hr⟩ := hs.introduced
  rw [Block.introduced, introducedAll_joinWrites, hr, hn, List.range_eq_range']
  simp [Scope.empty]

theorem compile_localsExact (h : (compile segments).result = .ok program) : program.body.LocalsExact := by
  obtain ⟨steps, scope, hs, rfl⟩ := compile_ok_iff.1 h
  exact closed_localsExact hs (hs.localsExact rfl)

theorem compile_resolved (h : (compile segments).result = .ok program) : program.body.Resolved [] := by
  obtain ⟨steps, scope, hs, rfl⟩ := compile_ok_iff.1 h
  have resolved := hs.resolved rfl
  simpa [Block.Resolved, resolvedAll_joinWrites, Scope.empty] using resolved

theorem compile_inRange (h : (compile segments).result = .ok program) : program.InRange := by
  refine Block.inRange_of_resolved (by simp) _ (compile_resolved h) (compile_localsExact h) fun s hs => ?_
  rw [compile_introduced h] at hs
  exact List.mem_range.1 hs

end Compile

/--
In the program of a template every slot is introduced once, by a declaration or a loop variable, and no
other slot occurs; blocks and loop heads reset just what they declare; every variable means the
innermost binder of its name, and a name of the model has none. So no run misses a slot.
-/
theorem compile_slot_discipline {segments : List Segment} {program : Program}
    (h : (compile segments).result = .ok program) :
    program.body.introduced = List.range program.slots ∧ program.InRange ∧
      program.body.LocalsExact ∧ program.body.Resolved [] ∧
      ∀ options rounds model slot, program.render options rounds model ≠ .error (.missingSlot slot) := by
  obtain ⟨steps, scope, hs, rfl⟩ := compile_ok_iff.1 h
  have hi : Step.introducedAll (joinWrites steps) = List.range scope.count := by
    obtain ⟨n, hn, hr⟩ := hs.introduced
    rw [introducedAll_joinWrites, hr, hn, List.range_eq_range']
    simp [Scope.empty]
  have hl : (Block.mk scope.pop.1 (joinWrites steps)).LocalsExact :=
    closed_localsExact hs (hs.localsExact rfl)
  have hr : (Block.mk scope.pop.1 (joinWrites steps)).Resolved [] := by
    have := hs.resolved rfl
    simpa [Block.Resolved, resolvedAll_joinWrites, Scope.empty] using this
  have inRange : Program.InRange ⟨.mk scope.pop.1 (joinWrites steps), scope.count⟩ :=
    Block.inRange_of_resolved (by simp) _ hr hl fun s hs => by
      rw [Block.introduced, hi] at hs
      exact List.mem_range.1 hs
  exact ⟨hi, inRange, hl, hr, fun options rounds model slot =>
    Program.render_found inRange options rounds model slot⟩

/-- An attribute declares `i`, a loop head shadows it, and the head's increment declares `last`. -/
theorem compile_slot_discipline_shadowed : ∃ program,
    (compile [
      .element "a" [.valued "b" [.statement (.assign (.name "i") (.literal "true"))]] "" false [
        .statement (.loop (.assign (.name "i") (.name "i")) (.name "i")
          (.statement (.assign (.name "last") (.unary "--" (.name "i")))) [
          .statement (.each "x" (.name "items") [.expr (.name "x"), .expr (.name "last")]),
          .statement (.assign (.name "i") (.name "last"))]),
        .expr (.name "last")]]).result = .ok program ∧
      program.slots = 4 ∧ program.body.introduced = List.range program.slots ∧ program.InRange ∧
      program.body.LocalsExact ∧ program.body.Resolved [] ∧
      ∀ options rounds model slot, program.render options rounds model ≠ .error (.missingSlot slot) := by
  refine ⟨⟨.mk [0] [
    .write "<a b=\"", .declare ⟨0, "i"⟩ (.const (.bool true)), .write "\">",
    .loop [1, 2] (.declare ⟨1, "i"⟩ (.variable ⟨0, "i"⟩)) (.variable ⟨1, "i"⟩)
      (.declare ⟨2, "last"⟩ (.update .decrement ⟨1, "i"⟩)) (.mk [] [
        .each ⟨3, "x"⟩ (.model "items") (.mk [] [.emit (.variable ⟨3, "x"⟩), .emit (.variable ⟨2, "last"⟩)]),
        .assign ⟨1, "i"⟩ (.variable ⟨2, "last"⟩)]),
    .emit (.model "last"), .write "</a>"], 4⟩, ?compiles, rfl, compile_slot_discipline ?compiles⟩
  rfl

end Stencil
