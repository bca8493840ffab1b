import Mathlib
import Stencil.Proofs.Binders
import Stencil.Proofs.Mapping
import Stencil.Proofs.Writes
/-!
# Templates compiled elsewhere

A part of a template asks its scope about the bare names that occur in it and for the next slot, and for
nothing else. In a scope that knows these names under other names and shifted slots the part, renamed,
compiles to the same steps with their variables relabelled (`Compiled.relabel`). So a part compiles elsewhere
to steps with shifted slots (`Compiled.shift`), and variables can be relabelled that none of its steps has
(`Compiled.mapAll_eq_self`).
-/

namespace Stencil

/-! ## Bare names -/

mutual

/-- The names that the scope is asked about; names of members and methods are not among them. -/
def Expr.bareNames : Expr → List String
  | .literal _ => []
  | .name x => [x]
  | .member target _ => target.bareNames
  | .index target position => target.bareNames ++ position.bareNames
  | .call target _ args => target.bareNames ++ Expr.bareNamesArgs args
  | .unary _ operand => operand.bareNames
  | .binary _ left right => left.bareNames ++ right.bareNames
  | .conditional condition ifTrue ifFalse => condition.bareNames ++ ifTrue.bareNames ++ ifFalse.bareNames

def Expr.bareNamesArgs : List Expr → List String
  | [] => []
  | e :: rest => e.bareNames ++ Expr.bareNamesArgs rest

end

mutual

/-- With the names of the variables that are assigned or loop through a collection. -/
def Statement.bareNames : Statement → List String
  | .assign target value => target.expr.bareNames ++ value.bareNames
  | .when condition body => condition.bareNames ++ Segment.bareNamesAll body
  | .choose condition body otherwise =>
    condition.bareNames ++ Segment.bareNamesAll body ++ Segment.bareNamesAll otherwise
  | .loop initial condition increment body =>
    initial.bareNames ++ condition.bareNames ++ increment.bareNames ++ Segment.bareNamesAll body
  | .each x collection body => x :: collection.bareNames ++ Segment.bareNamesAll body
  | .switch subject body => subject.bareNames ++ Segment.bareNamesAll body
  | .label _ guard =>
    match guard with
    | some e => e.bareNames
    | none => []

def Segment.bareNames : Segment → List String
  | .text _ => []
  | .expr e => e.bareNames
  | .statement s => s.bareNames
  | .block body => Segment.bareNamesAll body
  | .element _ attributes _ selfClosing children =>
    Attribute.bareNamesAll attributes ++ if selfClosing then [] else Segment.bareNamesAll children

def Segment.bareNamesAll : List Segment → List String
  | [] => []
  | s :: rest => s.bareNames ++ Segment.bareNamesAll rest

def Attribute.bareNames : Attribute → List String
  | .flag _ => []
  | .valued _ value => Segment.bareNamesAll value

def Attribute.bareNamesAll : List Attribute → List String
  | [] => []
  | a :: rest => a.bareNames ++ Attribute.bareNamesAll rest

end

def Part.bareNames : Part → List String
  | .statement _ s => s.bareNames
  | .increment s | .segment s => s.bareNames
  | .body l | .segments l => Segment.bareNamesAll l
  | .attribute a => a.bareNames
  | .attributes l => Attribute.bareNamesAll l

/-! ## Renamed templates -/

mutual

/-- The expression with other bare names; names of members and methods stay. -/
def Expr.rename (σ : String → String) : Expr → Expr
  | .literal token => .literal token
  | .name x => .name (σ x)
  | .member target x => .member (target.rename σ) x
  | .index target position => .index (target.rename σ) (position.rename σ)
  | .call target method args => .call (target.rename σ) method (Expr.renameArgs σ args)
  | .unary operator operand => .unary operator (operand.rename σ)
  | .binary operator left right => .binary operator (left.rename σ) (right.rename σ)
  | .conditional condition ifTrue ifFalse =>
    .conditional (condition.rename σ) (ifTrue.rename σ) (ifFalse.rename σ)

def Expr.renameArgs (σ : String → String) : List Expr → List Expr
  | [] => []
  | e :: rest => e.rename σ :: Expr.renameArgs σ rest

end

def Target.rename (σ : String → String) : Target → Target
  | .name x => .name (σ x)
  | .member target x => .member (target.rename σ) x

mutual

/-- Reads, assigned variables, roots of member chains and loop variables alike. -/
def Statement.rename (σ : String → String) : Statement → Statement
  | .assign target value => .assign (target.rename σ) (value.rename σ)
  | .when condition body => .when (condition.rename σ) (Segment.renameAll σ body)
  | .choose condition body otherwise =>
    .choose (condition.rename σ) (Segment.renameAll σ body) (Segment.renameAll σ otherwise)
  | .loop initial condition increment body =>
    .loop (initial.rename σ) (condition.rename σ) (increment.rename σ) (Segment.renameAll σ body)
  | .each x collection body => .each (σ x) (collection.rename σ) (Segment.renameAll σ body)
  | .switch subject body => .switch (subject.rename σ) (Segment.renameAll σ body)
  | .label name guard => .label name (guard.map (Expr.rename σ))

def Segment.rename (σ : String → String) : Segment → Segment
  | .text s => .text s
  | .expr e => .expr (e.rename σ)
  | .statement s => .statement (s.rename σ)
  | .block body => .block (Segment.renameAll σ body)
  | .element name attributes space selfClosing children =>
    .element name (Attribute.renameAll σ attributes) space selfClosing (Segment.renameAll σ children)

def Segment.renameAll (σ : String → String) : List Segment → List Segment
  | [] => []
  | s :: rest => s.rename σ :: Segment.renameAll σ rest

def Attribute.rename (σ : String → String) : Attribute → Attribute
  | .flag name => .flag name
  | .valued name value => .valued name (Segment.renameAll σ value)

def Attribute.renameAll (σ : String → String) : List Attribute → List Attribute
  | [] => []
  | a :: rest => a.rename σ :: Attribute.renameAll σ rest

end

def Part.rename (σ : String → String) : Part → Part
  | .statement fresh s => .statement fresh (s.rename σ)
  | .increment s => .increment (s.rename σ)
  | .body l => .body (Segment.renameAll σ l)
  | .segment s => .segment (s.rename σ)
  | .segments l => .segments (Segment.renameAll σ l)
  | .attribute a => .attribute (a.rename σ)
  | .attributes l => .attributes (Attribute.renameAll σ l)

section Rename

mutual

@[simp] theorem Expr.rename_id : ∀ e : Expr, e.rename id = e
  | .literal _ | .name _ => rfl
  | .member target _ => by rw [Expr.rename, Expr.rename_id target]
  | .index target position => by rw [Expr.rename, Expr.rename_id target, Expr.rename_id position]
  | .call target _ args => by rw [Expr.rename, Expr.rename_id target, Expr.renameArgs_id args]
  | .unary _ operand => by rw [Expr.rename, Expr.rename_id operand]
  | .binary _ left right => by rw [Expr.rename, Expr.rename_id left, Expr.rename_id right]
  | .conditional condition ifTrue ifFalse => by
    rw [Expr.rename, Expr.rename_id condition, Expr.rename_id ifTrue, Expr.rename_id ifFalse]

@[simp] theorem Expr.renameArgs_id : ∀ es : List Expr, Expr.renameArgs id es = es
  | [] => rfl
  | e :: rest => by rw [Expr.renameArgs, Expr.rename_id e, Expr.renameArgs_id rest]

end

@[simp] theorem Target.rename_id (target : Target) : target.rename id = target := by
  cases target <;> simp [Target.rename]

mutual

@[simp] theorem Statement.rename_id : ∀ s : Statement, s.rename id = s
  | .assign _ _ => by simp [Statement.rename]
  | .when _ body | .switch _ body | .each _ _ body => by simp [Statement.rename, Segment.renameAll_id body]
  | .choose _ body otherwise => by simp [Statement.rename, Segment.renameAll_id body, Segment.renameAll_id otherwise]
  | .loop initial _ increment body => by
    simp [Statement.rename, Statement.rename_id initial, Segment.rename_id increment, Segment.renameAll_id body]
  | .label _ guard => by cases guard <;> simp [Statement.rename]

@[simp] theorem Segment.rename_id : ∀ s : Segment, s.rename id = s
  | .text _ => rfl
  | .expr _ => by simp [Segment.rename]
  | .statement s => by rw [Segment.rename, Statement.rename_id s]
  | .block body => by rw [Segment.rename, Segment.renameAll_id body]
  | .element _ attributes _ _ children => by
    rw [Segment.rename, Attribute.renameAll_id attributes, Segment.renameAll_id children]

@[simp] theorem Segment.renameAll_id : ∀ l : List Segment, Segment.renameAll id l = l
  | [] => rfl
  | s :: rest => by rw [Segment.renameAll, Segment.rename_id s, Segment.renameAll_id rest]

@[simp] theorem Attribute.rename_id : ∀ a : Attribute, a.rename id = a
  | .flag _ => rfl
  | .valued _ value => by rw [Attribute.rename, Segment.renameAll_id value]

@[simp] theorem Attribute.renameAll_id : ∀ l : List Attribute, Attribute.renameAll id l = l
  | [] => rfl
  | a :: rest => by rw [Attribute.renameAll, Attribute.rename_id a, Attribute.renameAll_id rest]

end

@[simp] theorem Part.rename_id (part : Part) : part.rename id = part := by
  cases part <;> simp [Part.rename]

theorem Expr.chain_bareNames : ∀ {e : Expr} {root : String} {path : List String},
    e.chain = .ok (root, path) → root ∈ e.bareNames
  | .name x, _, _, h => by
    cases h
    exact List.mem_cons_self
  | .member target x, _, _, h => by
    obtain ⟨⟨root, path⟩, hc, heq⟩ := bind_eq_ok.1 h
    cases heq
    exact Expr.chain_bareNames (e := target) hc

theorem Expr.chain_rename (σ : String → String) : ∀ {e : Expr} {root : String} {path : List String},
    e.chain = .ok (root, path) → (e.rename σ).chain = .ok (σ root, path)
  | .name x, _, _, h => by
    cases h
    rfl
  | .member target x, _, _, h => by
    obtain ⟨⟨root, path⟩, hc, heq⟩ := bind_eq_ok.1 h
    cases heq
    rw [Expr.rename, Expr.chain, Expr.chain_rename σ hc]
    rfl

end Rename

/-! ## Relabelled variables -/

/-- Other names for bare names, other variables for variables, and how far the slots of these are shifted. -/
structure Relabelling where
  name : String → String
  var : Local → Local
  shift : Nat
  slot_var : ∀ x, (var x).slot = x.slot + shift

def Root.relabel (var : Local → Local) : Root → Root
  | .variable x => .variable (var x)
  | .model name => .model name

def Place.relabel (var : Local → Local) (place : Place) : Place := ⟨place.root.relabel var, place.path⟩

/-- Other variables in the same slots. -/
def Mapping.variables (var : Local → Local) : Mapping := ⟨var, Term.replace var .model, Place.relabel var, id⟩

/-- What a relabelling makes of a program. -/
def Relabelling.mapping (r : Relabelling) : Mapping :=
  { Mapping.variables r.var with locals := List.map (· + r.shift) }

def Local.shift (d : Nat) (x : Local) : Local := ⟨x.slot + d, x.name⟩

/-- All names stay, and all slots are shifted. -/
def Relabelling.shifting (d : Nat) : Relabelling := ⟨id, Local.shift d, d, fun _ => rfl⟩

def Mapping.shift (d : Nat) : Mapping := (Relabelling.shifting d).mapping

/-- All slots stay. -/
def Relabelling.still (name : String → String) (var : Local → Local) (h : ∀ x, (var x).slot = x.slot) : Relabelling :=
  ⟨name, var, 0, h⟩

@[simp] theorem Relabelling.still_mapping (name : String → String) (var : Local → Local)
    (h : ∀ x, (var x).slot = x.slot) : (Relabelling.still name var h).mapping = .variables var := by
  simp [Relabelling.mapping, Relabelling.still, Mapping.variables]

section Mapping
variable {f : Mapping}

@[simp] theorem mapAll_append (a b : List Step) : Step.mapAll f (a ++ b) = Step.mapAll f a ++ Step.mapAll f b := by
  induction a with
  | nil => rfl
  | cons step a ih => simp [Step.mapAll, ih]

@[simp] theorem declared_map (step : Step) : (step.map f).declared = step.declared.map f.var := by
  cases step <;> simp [Step.map, Step.declared]

@[simp] theorem declaredAll_mapAll (steps : List Step) :
    Step.declaredAll (Step.mapAll f steps) = (Step.declaredAll steps).map f.var := by
  induction steps with
  | nil => rfl
  | cons step rest ih => simp [Step.mapAll, ih]

/-- Mapping makes no step a write and leaves the writes as they are. -/
theorem mapAll_before (step : Step) (joined : List Step) :
    Step.mapAll f (step.before joined) = (step.map f).before (Step.mapAll f joined) := by
  cases step with
  | write s =>
    simp only [Step.map, Step.before]
    cases joined with
    | nil => by_cases hs : s = "" <;> simp [writeBefore, hs, Step.mapAll, Step.map]
    | cons next joined =>
      by_cases hs : s = "" <;> cases next <;> simp [writeBefore, hs, Step.mapAll, Step.map]
  | _ => rfl

theorem joinWrites_mapAll (steps : List Step) :
    joinWrites (Step.mapAll f steps) = Step.mapAll f (joinWrites steps) := by
  induction steps with
  | nil => rfl
  | cons step rest ih => rw [Step.mapAll, joinWrites_cons, joinWrites_cons, mapAll_before, ih]

end Mapping

/-! ## Scopes that know names under other labels -/

/-- The names in `N` stay apart and stay identifiers, and variables in the slots from `first` to `next` follow them. -/
structure Relabelling.Fits (r : Relabelling) (N : String → Prop) (first next : Nat) : Prop where
  injective : ∀ x y, N x → N y → r.name x = r.name y → x = y
  identifier : ∀ x, N x → isIdentifier x → isIdentifier (r.name x)
  label : ∀ s x, first ≤ s → s < next → N x → r.var ⟨s, x⟩ = ⟨s + r.shift, r.name x⟩

/--
The second scope hands out shifted slots, and has the names in `N` under their labels there; those that belong
to the model keep their names.
-/
structure Relabelled (r : Relabelling) (N : String → Prop) (scope scope' : Scope) : Prop where
  inside : scope.frames ≠ []
  inside' : scope'.frames ≠ []
  count : scope'.count = scope.count + r.shift
  resolve : ∀ x, N x → scope'.resolve? (r.name x) = (scope.resolve? x).map r.var
  unbound : ∀ x, N x → scope.resolve? x = none → r.name x = x

section Relabelled
variable {r : Relabelling} {N : String → Prop} {scope scope' inner inner' : Scope} {first next : Nat}

theorem Relabelling.Fits.mono (h : r.Fits N first next) {first' next' : Nat} (hf : first ≤ first') (hn : next' ≤ next) :
    r.Fits N first' next' where
  injective := h.injective
  identifier := h.identifier
  label s x hs hs' hx := h.label s x (by omega) (by omega) hx

theorem Relabelled.push (h : Relabelled r N scope scope') : Relabelled r N scope.push scope'.push where
  inside := by simp [Scope.push]
  inside' := by simp [Scope.push]
  count := h.count
  resolve x hx := by
    have hr := h.resolve x hx
    rwa [resolve?_eq_innermost?, resolve?_eq_innermost?] at hr ⊢
  unbound x hx hn := h.unbound x hx (by rwa [resolve?_eq_innermost?] at hn ⊢)

theorem Relabelled.declare (h : Relabelled r N scope scope') (hr : r.Fits N scope.count (scope.count + 1)) {x : String}
    (hx : N x) : Relabelled r N (scope.declare x).2 (scope'.declare (r.name x)).2 where
  inside := by
    obtain ⟨frame, outer, hf⟩ := List.ne_nil_iff_exists_cons.1 h.inside
    simp [declare_frames x hf]
  inside' := by
    obtain ⟨frame, outer, hf⟩ := List.ne_nil_iff_exists_cons.1 h.inside'
    simp [declare_frames (r.name x) hf]
  count := by
    rw [declare_count, declare_count, h.count]
    omega
  resolve y hy := by
    have hres := h.resolve y hy
    have hlabel := hr.label scope.count x (Nat.le_refl _) (Nat.lt_succ_self _) hx
    simp only [resolve?_eq_innermost?, declare_binders, innermost?, List.find?_cons] at hres ⊢
    by_cases hxy : x = y
    · subst hxy
      simp [hlabel, h.count]
    · have hne : (x == y) = false := by simpa using hxy
      have hne' : (r.name x == r.name y) = false := by simpa using fun heq => hxy (hr.injective x y hx hy heq)
      simp [hne, hne', hres]
  unbound y hy hn := by
    refine h.unbound y hy ?_
    simp only [resolve?_eq_innermost?, declare_binders, innermost?, List.find?_cons] at hn ⊢
    split at hn
    · cases hn
    · exact hn

/-- Closing the frame that was opened last gives back what the scopes knew before. -/
theorem Relabelled.pop (h : Relabelled r N scope scope') (hi : Relabelled r N inner inner') (steps : List Step)
    (hf : inner.frames = (Step.declaredAll steps).reverse :: scope.frames)
    (hf' : inner'.frames = (Step.declaredAll (Step.mapAll r.mapping steps)).reverse :: scope'.frames) :
    inner'.pop.1 = inner.pop.1.map (· + r.shift) ∧ Relabelled r N inner.pop.2 inner'.pop.2 := by
  obtain ⟨hl, hp⟩ := pop_of_frames hf
  obtain ⟨hl', hp'⟩ := pop_of_frames hf'
  refine ⟨?_, ?_, ?_, ?_, fun x hx => ?_, fun x hx hn => h.unbound x hx ?_⟩
  · have slots (l : List Local) : (l.map r.var).map Local.slot = (l.map Local.slot).map (· + r.shift) := by
      simp [r.slot_var]
    simp only [hl, hl', declaredAll_mapAll, List.map_reverse, List.reverse_reverse]
    exact slots _
  · rw [hp]
    exact h.inside
  · rw [hp']
    exact h.inside'
  · rw [Scope.pop_count, Scope.pop_count, hi.count]
  · have hr := h.resolve x hx
    rwa [resolve?_eq_innermost?, resolve?_eq_innermost?, hp, hp', ← resolve?_eq_innermost?, ← resolve?_eq_innermost?]
  · rwa [resolve?_eq_innermost?, hp, ← resolve?_eq_innermost?] at hn

theorem Relabelled.term (h : Relabelled r N scope scope') {x : String} (hx : N x) :
    scope'.term (r.name x) = (scope.term x).replace r.var .model := by
  unfold Scope.term
  rw [h.resolve x hx]
  cases hy : scope.resolve? x with
  | some y => rfl
  | none => simp [Term.replace, h.unbound x hx hy]

theorem Relabelled.root (h : Relabelled r N scope scope') {x : String} (hx : N x) :
    scope'.root (r.name x) = (scope.root x).relabel r.var := by
  unfold Scope.root
  rw [h.resolve x hx]
  cases hy : scope.resolve? x with
  | some y => rfl
  | none => simp [Root.relabel, h.unbound x hx hy]

mutual

theorem Expr.compile_relabel (h : Relabelled r N scope scope')
    (hid : ∀ x, N x → isIdentifier x → isIdentifier (r.name x)) :
    ∀ (e : Expr) (t : Term), (∀ x ∈ e.bareNames, N x) → (e.compile scope).result = .ok t →
      ((e.rename r.name).compile scope').result = .ok (t.replace r.var .model)
  | .literal _ => by
    intro _ _ ht
    obtain ⟨v, hv, rfl⟩ := literal_compile_ok.1 ht
    exact literal_compile_ok.2 ⟨v, hv, rfl⟩
  | .name x => by
    intro _ hN ht
    obtain ⟨hx, rfl⟩ := name_compile_ok.1 ht
    have hNx := hN x (by simp [Expr.bareNames])
    exact name_compile_ok.2 ⟨hid x hNx hx, h.term hNx⟩
  | .member target _ => by
    intro _ hN ht
    obtain ⟨hx, e, he, rfl⟩ := member_compile_ok.1 ht
    exact member_compile_ok.2 ⟨hx, _, Expr.compile_relabel h hid target e hN he, rfl⟩
  | .index target position => by
    intro _ hN ht
    obtain ⟨e, i, he, hi, rfl⟩ := index_compile_ok.1 ht
    obtain ⟨nt, np⟩ := List.forall_mem_append.1 hN
    exact index_compile_ok.2
      ⟨_, _, Expr.compile_relabel h hid target e nt he, Expr.compile_relabel h hid position i np hi, rfl⟩
  | .call target _ args => by
    intro _ hN ht
    obtain ⟨hm, e, es, he, hes, rfl⟩ := call_compile_ok.1 ht
    obtain ⟨nt, na⟩ := List.forall_mem_append.1 hN
    exact call_compile_ok.2
      ⟨hm, _, _, Expr.compile_relabel h hid target e nt he, Expr.compileArgs_relabel h hid args es na hes, rfl⟩
  | .unary _ operand => by
    intro _ hN ht
    rcases unary_compile_ok.1 ht with ⟨op, e, hop, he, rfl⟩ | ⟨op, x, y, hop, rfl, hx, hy, rfl⟩
    · exact unary_compile_ok.2 (.inl ⟨op, _, hop, Expr.compile_relabel h hid operand e hN he, rfl⟩)
    · have hNx := hN x (by simp [Expr.bareNames])
      refine unary_compile_ok.2 (.inr ⟨op, r.name x, r.var y, hop, rfl, hid x hNx hx, ?_, rfl⟩)
      rw [h.resolve x hNx, hy, Option.map_some]
  | .binary _ left right => by
    intro _ hN ht
    obtain ⟨op, l, r', hop, hl, hr, rfl⟩ := binary_compile_ok.1 ht
    obtain ⟨nl, nr⟩ := List.forall_mem_append.1 hN
    exact binary_compile_ok.2
      ⟨op, _, _, hop, Expr.compile_relabel h hid left l nl hl, Expr.compile_relabel h hid right r' nr hr, rfl⟩
  | .conditional condition ifTrue ifFalse => by
    intro _ hN ht
    obtain ⟨c, a, b, hc, ha, hb, rfl⟩ := conditional_compile_ok.1 ht
    obtain ⟨nca, nb⟩ := List.forall_mem_append.1 hN
    obtain ⟨nc, na⟩ := List.forall_mem_append.1 nca
    exact conditional_compile_ok.2 ⟨_, _, _, Expr.compile_relabel h hid condition c nc hc,
      Expr.compile_relabel h hid ifTrue a na ha, Expr.compile_relabel h hid ifFalse b nb hb, rfl⟩

theorem Expr.compileArgs_relabel (h : Relabelled r N scope scope')
    (hid : ∀ x, N x → isIdentifier x → isIdentifier (r.name x)) :
    ∀ (es : List Expr) (ts : List Term), (∀ x ∈ Expr.bareNamesArgs es, N x) →
      (Expr.compileArgs scope es).result = .ok ts →
      (Expr.compileArgs scope' (Expr.renameArgs r.name es)).result = .ok (Term.replaceArgs r.var .model ts)
  | [] => by
    intro _ _ ht
    cases ht
    rfl
  | e :: rest => by
    intro _ hN ht
    obtain ⟨t, more, he, hr, rfl⟩ := compileArgs_cons_ok.1 ht
    obtain ⟨ne, nr⟩ := List.forall_mem_append.1 hN
    exact compileArgs_cons_ok.2
      ⟨_, _, Expr.compile_relabel h hid e t ne he, Expr.compileArgs_relabel h hid rest more nr hr, rfl⟩

end

theorem compilePlace_relabel (h : Relabelled r N scope scope')
    (hid : ∀ x, N x → isIdentifier x → isIdentifier (r.name x)) {parent : Expr} {x : String} {place : Place}
    (hN : ∀ y ∈ (Expr.member parent x).bareNames, N y) (hp : (compilePlace scope parent x).result = .ok place) :
    (compilePlace scope' (parent.rename r.name) x).result = .ok (place.relabel r.var) := by
  obtain ⟨root, path, hc, hn, rfl⟩ := compilePlace_ok.1 hp
  have hroot := hN root (Expr.chain_bareNames hc)
  obtain ⟨ir, ip⟩ := List.forall_mem_cons.1 hn
  refine compilePlace_ok.2 ⟨r.name root, path, Expr.chain_rename r.name hc, ?_, ?_⟩
  · exact List.forall_mem_cons.2 ⟨hid root hroot ir, ip⟩
  · rw [h.root hroot]
    rfl

end Relabelled

/-! ## Parts compiled elsewhere -/

/-- In the second scope the part, renamed, compiles to the same steps with their variables relabelled. -/
theorem Compiled.relabel {r : Relabelling} {N : String → Prop} {scope scope' target : Scope} {part : Part}
    {steps : List Step} (h : Compiled scope part steps scope') (hN : ∀ x ∈ part.bareNames, N x)
    (hr : r.Fits N scope.count scope'.count) (hs : Relabelled r N scope target) :
    ∃ target', Compiled target (part.rename r.name) (Step.mapAll r.mapping steps) target' ∧
      Relabelled r N scope' target' := by
  have hid := hr.identifier
  -- the scopes may differ in all other names, and so in the frames that hold them
  induction h generalizing target with
  | store he hp =>
    obtain ⟨np, nv⟩ := List.forall_mem_append.1 hN
    exact ⟨target, .store (Expr.compile_relabel hs hid _ _ nv he) (compilePlace_relabel hs hid np hp), hs⟩
  | @declare scope x value e fresh he hx hf =>
    obtain ⟨nx, nv⟩ := List.forall_mem_append.1 hN
    have hNx := nx x List.mem_cons_self
    rw [declare_count] at hr
    refine ⟨_, ?_, hs.declare hr hNx⟩
    change Compiled target _ [.declare (r.var ⟨scope.count, x⟩) (e.replace r.var .model)] _
    rw [hr.label scope.count x (Nat.le_refl _) (Nat.lt_succ_self _) hNx, ← hs.count]
    refine .declare (Expr.compile_relabel hs hid _ _ nv he) (hid x hNx hx) (hf.imp_right fun hn => ?_)
    rw [hs.resolve x hNx, hn, Option.map_none]
  | @assign scope x y value e he hx hy =>
    obtain ⟨nx, nv⟩ := List.forall_mem_append.1 hN
    have hNx := nx x List.mem_cons_self
    refine ⟨target, .assign (Expr.compile_relabel hs hid _ _ nv he) (hid x hNx hx) ?_, hs⟩
    rw [hs.resolve x hNx, hy, Option.map_some]
    rfl
  | when hc _ ih =>
    obtain ⟨nc, nb⟩ := List.forall_mem_append.1 hN
    obtain ⟨target', hb, hs'⟩ := ih nb hr hs
    exact ⟨target', .when (Expr.compile_relabel hs hid _ _ nc hc) hb, hs'⟩
  | choose hc hb ho ihb iho =>
    obtain ⟨ncb, no⟩ := List.forall_mem_append.1 hN
    obtain ⟨nc, nb⟩ := List.forall_mem_append.1 ncb
    obtain ⟨target₁, hb', hs₁⟩ := ihb nb (hr.mono (Nat.le_refl _) ho.introduced.le) hs
    obtain ⟨target₂, ho', hs₂⟩ := iho no (hr.mono hb.introduced.le (Nat.le_refl _)) hs₁
    exact ⟨target₂, .choose (Expr.compile_relabel hs hid _ _ nc hc) hb' ho', hs₂⟩
  | @loop scope scope₁ scope₂ scope₃ fresh initial condition increment body i c u b hi hc hu hb ihi ihu ihb =>
    obtain ⟨nicu, nb⟩ := List.forall_mem_append.1 hN
    obtain ⟨nic, nu⟩ := List.forall_mem_append.1 nicu
    obtain ⟨ni, nc⟩ := List.forall_mem_append.1 nic
    have hi_le := hi.introduced.le
    have hu_le := hu.introduced.le
    have hb_le := hb.introduced.le
    rw [Scope.pop_count] at hr
    rw [Scope.push_count] at hi_le
    obtain ⟨target₁, hi', hs₁⟩ := ihi ni (hr.mono (Nat.le_refl _) (by omega)) hs.push
    obtain ⟨target₂, hu', hs₂⟩ := ihu nu (hr.mono hi_le hb_le) hs₁
    obtain ⟨target₃, hb', hs₃⟩ := ihb nb (hr.mono (by omega) (Nat.le_refl _)) hs₂
    -- the frame that is closed holds what the head of the loop declares
    obtain ⟨hl, hs'⟩ := hs.pop hs₃ [i, u]
      (by simpa [Step.declared] using hb.frames (hu.frames (hi.frames rfl)))
      (by simpa [Step.mapAll, Step.map, Step.declared] using hb'.frames (hu'.frames (hi'.frames rfl)))
    refine ⟨_, ?_, hs'⟩
    change Compiled target _ [.loop (scope₃.pop.1.map (· + r.shift)) _ _ _ _] _
    rw [← hl]
    exact .loop hi' (Expr.compile_relabel hs₁ hid _ _ nc hc) hu' hb'
  | @each scope scope' fresh x collection body c b hx hc hb ih =>
    obtain ⟨nxc, nb⟩ := List.forall_mem_append.1 hN
    obtain ⟨nx, nc⟩ := List.forall_mem_cons.1 nxc
    have hb_le := hb.introduced.le
    rw [declare_count, Scope.push_count] at hb_le
    rw [Scope.pop_count] at hr
    have hlabel := hr.label scope.count x (Nat.le_refl _) (by omega) nx
    have hs₀ := hs.push.declare (hr.mono (Nat.le_refl _) hb_le) nx
    obtain ⟨target', hb', hs₁⟩ := ih nb (hr.mono (by simp) (Nat.le_refl _)) hs₀
    obtain ⟨-, hs'⟩ := hs.pop hs₁ [.declare ⟨scope.count, x⟩ c]
      (by simpa [Step.declared] using hb.frames (declare_frames x rfl))
      (by simpa [Step.mapAll, Step.map, Step.declared, Relabelling.mapping, Mapping.variables, hlabel, hs.count]
        using hb'.frames (declare_frames (r.name x) rfl))
    refine ⟨_, ?_, hs'⟩
    change Compiled target _ [.each (r.var ⟨scope.count, x⟩) _ _] _
    rw [hlabel, ← hs.count]
    exact .each (hid x nx hx) (Expr.compile_relabel hs hid _ _ nc hc) hb'
  | switch he _ ih =>
    obtain ⟨ne, nb⟩ := List.forall_mem_append.1 hN
    obtain ⟨target', hb, hs'⟩ := ih nb hr hs
    exact ⟨target', .switch (Expr.compile_relabel hs hid _ _ ne he) hb, hs'⟩
  | label hn => exact ⟨target, .label hn, hs⟩
  | guarded hn he => exact ⟨target, .guarded hn (Expr.compile_relabel hs hid _ _ hN he), hs⟩
  | evaluate ht => exact ⟨target, .evaluate (Expr.compile_relabel hs hid _ _ hN ht), hs⟩
  | update _ ih =>
    obtain ⟨target', hu, hs'⟩ := ih hN hr hs
    exact ⟨target', .update hu, hs'⟩
  | body hl ih =>
    rw [Scope.pop_count] at hr
    obtain ⟨inner, hl', hi⟩ := ih hN hr hs.push
    obtain ⟨hlocals, hs'⟩ := hs.pop hi _ (by simpa using hl.frames rfl) (by simpa using hl'.frames rfl)
    have hbody := Compiled.body hl'
    rw [hlocals, joinWrites_mapAll] at hbody
    exact ⟨_, hbody, hs'⟩
  | text => exact ⟨target, .text, hs⟩
  | emit ht => exact ⟨target, .emit (Expr.compile_relabel hs hid _ _ hN ht), hs⟩
  | statement _ ih =>
    obtain ⟨target', hs₁, hs'⟩ := ih hN hr hs
    exact ⟨target', .statement hs₁, hs'⟩
  | block _ ih =>
    obtain ⟨target', hb, hs'⟩ := ih hN hr hs
    exact ⟨target', .block hb, hs'⟩
  | closed hn hsp _ ih =>
    obtain ⟨na, -⟩ := List.forall_mem_append.1 hN
    obtain ⟨target', ha, hs'⟩ := ih na hr hs
    refine ⟨target', ?_, hs'⟩
    simpa [Part.rename, Segment.rename, Step.mapAll, Step.map] using Compiled.closed hn hsp ha
  | element hn hsp ha hc iha ihc =>
    obtain ⟨na, nc⟩ := List.forall_mem_append.1 hN
    obtain ⟨target₁, ha', hs₁⟩ := iha na (hr.mono (Nat.le_refl _) hc.introduced.le) hs
    obtain ⟨target₂, hc', hs₂⟩ := ihc nc (hr.mono ha.introduced.le (Nat.le_refl _)) hs₁
    refine ⟨target₂, ?_, hs₂⟩
    simpa [Part.rename, Segment.rename, Step.mapAll, Step.map] using Compiled.element hn hsp ha' hc'
  | nil => exact ⟨target, .nil, hs⟩
  | cons hh ht ihs ihr =>
    obtain ⟨ns, nr⟩ := List.forall_mem_append.1 hN
    obtain ⟨target₁, hs₁, h₁⟩ := ihs ns (hr.mono (Nat.le_refl _) ht.introduced.le) hs
    obtain ⟨target₂, hr₂, h₂⟩ := ihr nr (hr.mono hh.introduced.le (Nat.le_refl _)) h₁
    rw [mapAll_append]
    exact ⟨target₂, .cons hs₁ hr₂, h₂⟩
  | flag hn => exact ⟨target, .flag hn, hs⟩
  | valued hn _ ih =>
    obtain ⟨target', hv, hs'⟩ := ih hN hr hs
    refine ⟨target', ?_, hs'⟩
    simpa [Part.rename, Attribute.rename, Step.mapAll, Step.map] using Compiled.valued hn hv
  | noAttributes => exact ⟨target, .noAttributes, hs⟩
  | moreAttributes hh ht ihs ihr =>
    obtain ⟨ns, nr⟩ := List.forall_mem_append.1 hN
    obtain ⟨target₁, hs₁, h₁⟩ := ihs ns (hr.mono (Nat.le_refl _) ht.introduced.le) hs
    obtain ⟨target₂, hr₂, h₂⟩ := ihr nr (hr.mono hh.introduced.le (Nat.le_refl _)) h₁
    rw [mapAll_append]
    exact ⟨target₂, .moreAttributes hs₁ hr₂, h₂⟩

section Compiled
variable {scope scope' : Scope} {part : Part} {steps : List Step}

/-- In a scope that is further on the part compiles to the same steps with their slots shifted. -/
theorem Compiled.shift {d : Nat} {N : String → Prop} {target : Scope} (h : Compiled scope part steps scope')
    (hN : ∀ x ∈ part.bareNames, N x) (hs : Relabelled (.shifting d) N scope target) :
    ∃ target', Compiled target part (Step.mapAll (.shift d) steps) target' ∧
      Relabelled (.shifting d) N scope' target' := by
  have fits : (Relabelling.shifting d).Fits N scope.count scope'.count :=
    ⟨fun _ _ _ _ heq => heq, fun _ _ hx => hx, fun _ _ _ _ _ => rfl⟩
  have relabelled := h.relabel hN fits hs
  have same : part.rename (Relabelling.shifting d).name = part := part.rename_id
  rwa [same] at relabelled

section Unchanged
variable {var : Local → Local} (hslot : ∀ x, (var x).slot = x.slot)
include hslot

theorem Relabelled.itself (hin : scope.frames ≠ []) (hscope : ∀ x ∈ scope.frames.flatten, var x = x) :
    Relabelled (.still id var hslot) (fun _ => True) scope scope := by
  refine ⟨hin, hin, rfl, fun x _ => ?_, fun _ _ _ => rfl⟩
  change scope.resolve? x = (scope.resolve? x).map var
  cases hx : scope.resolve? x with
  | none => rfl
  | some y =>
    rw [resolve?_eq_innermost?] at hx
    rw [Option.map_some, hscope y (List.mem_of_find?_eq_some hx)]

/-- An expression has only variables in scope. -/
theorem Expr.replace_eq_self {e : Expr} {t : Term} (h : (e.compile scope).result = .ok t) (hin : scope.frames ≠ [])
    (hscope : ∀ x ∈ scope.frames.flatten, var x = x) : t.replace var .model = t := by
  have ht := Expr.compile_relabel (Relabelled.itself hslot hin hscope) (fun _ _ hx => hx) e t (fun _ _ => trivial) h
  have same : e.rename (Relabelling.still id var hslot).name = e := e.rename_id
  rw [same, h] at ht
  exact (Except.ok.inj ht).symm

/-- Variables other than those in scope and those that the part introduces do not occur in its steps. -/
theorem Compiled.mapAll_eq_self (h : Compiled scope part steps scope') (hin : scope.frames ≠ [])
    (hscope : ∀ x ∈ scope.frames.flatten, var x = x)
    (hnew : ∀ x, scope.count ≤ x.slot → x.slot < scope'.count → var x = x) :
    Step.mapAll (.variables var) steps = steps := by
  have fits : (Relabelling.still id var hslot).Fits (fun _ => True) scope.count scope'.count :=
    ⟨fun _ _ _ _ heq => heq, fun _ _ hx => hx, fun s x hs hs' _ => hnew ⟨s, x⟩ hs hs'⟩
  obtain ⟨target, hsteps, -⟩ := h.relabel (fun _ _ => trivial) fits (Relabelled.itself hslot hin hscope)
  have same : part.rename (Relabelling.still id var hslot).name = part := part.rename_id
  rw [same, Relabelling.still_mapping] at hsteps
  -- compiling the same part twice gives the same steps
  exact congrArg Prod.fst (Except.ok.inj (hsteps.ok.symm.trans h.ok))

end Unchanged

end Compiled

end Stencil
