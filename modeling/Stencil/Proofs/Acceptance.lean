import Mathlib
import Stencil.Proofs.Binders
/-!
# Which templates compile

`WellFormed` judges a template by itself, from the names that are local variables where each part
stands (`grown` says how they grow). A template compiles just when it is well formed
(`compile_accepts_wellFormed`).
-/

namespace Stencil

/-! ## Names -/

def IsNameStart (c : Char) : Prop := ('A' ≤ c ∧ c ≤ 'Z') ∨ ('a' ≤ c ∧ c ≤ 'z') ∨ c = '_' ∨ c = '$'

/-- A letter, `_` or `$`, then any number of these and digits. -/
def IsName (name : String) : Prop :=
  ∃ c cs, name.toList = c :: cs ∧ IsNameStart c ∧ ∀ d ∈ cs, IsNameStart d ∨ ('0' ≤ d ∧ d ≤ '9')

/-- Not empty, without white space and `<`, `>`, `/`, `"`, `'`, `=`. -/
def IsMarkupName (name : String) : Prop :=
  name ≠ "" ∧ ∀ c ∈ name.toList, ¬Text.isBlank c ∧ c ∉ ['<', '>', '/', '"', '\'', '=']

/-! ## Expressions -/

mutual

/-- Well formed where `names` are the local variables. -/
def Expr.WellFormed (names : List String) : Expr → Prop
  | .literal token => ∃ v, Literal.decode token = .ok v
  | .name x => IsName x
  | .member target x => target.WellFormed names ∧ IsName x
  | .index target position => target.WellFormed names ∧ position.WellFormed names
  | .call target method args =>
    target.WellFormed names ∧ IsName method ∧ Expr.WellFormedArgs names args
  | .unary operator operand =>
    ((∃ op : UnaryOp, operatorSymbol operator = op.symbol) ∧ operand.WellFormed names) ∨
      ((∃ op : UpdateOp, operatorSymbol operator = op.symbol) ∧
        ∃ x, operand = .name x ∧ IsName x ∧ x ∈ names)
  | .binary operator left right =>
    (∃ op : BinaryOp, operatorSymbol operator = op.symbol) ∧
      left.WellFormed names ∧ right.WellFormed names
  | .conditional condition ifTrue ifFalse =>
    condition.WellFormed names ∧ ifTrue.WellFormed names ∧ ifFalse.WellFormed names

def Expr.WellFormedArgs (names : List String) : List Expr → Prop
  | [] => True
  | e :: rest => e.WellFormed names ∧ Expr.WellFormedArgs names rest

end

/-- A name, or a member of a chain. -/
def Expr.IsChain : Expr → Prop
  | .name x => IsName x
  | .member target x => target.IsChain ∧ IsName x
  | _ => False

/-! ## Names that become local -/

/-- An assignment to a bare name makes the name local. -/
def Statement.grown (names : List String) : Statement → List String
  | .assign (.name x) _ => x :: names
  | _ => names

mutual

/-- The local names after the segment. Markup opens no scope; blocks and bodies close theirs. -/
def Segment.grown (names : List String) : Segment → List String
  | .statement s => s.grown names
  | .element _ attributes _ selfClosing children =>
    if selfClosing then Attribute.grownAll names attributes
    else Segment.grownAll (Attribute.grownAll names attributes) children
  | _ => names

def Segment.grownAll (names : List String) : List Segment → List String
  | [] => names
  | s :: rest => Segment.grownAll (s.grown names) rest

def Attribute.grown (names : List String) : Attribute → List String
  | .flag _ => names
  | .valued _ value => Segment.grownAll names value

def Attribute.grownAll (names : List String) : List Attribute → List String
  | [] => names
  | a :: rest => Attribute.grownAll (a.grown names) rest

end

/-! ## Statements and segments -/

def Segment.IsCode : Segment → Prop
  | .expr _ | .statement _ => True
  | _ => False

mutual

/--
Parts are judged in order, each with the names that those before it made local. The head of a loop
comes as initial statement, condition, increment; its names are local in the body too.
-/
def Statement.WellFormed (names : List String) : Statement → Prop
  | .assign target value => value.WellFormed names ∧ target.expr.IsChain
  | .when condition body => condition.WellFormed names ∧ Segment.WellFormedAll names body
  | .choose condition body otherwise =>
    condition.WellFormed names ∧ Segment.WellFormedAll names body ∧ Segment.WellFormedAll names otherwise
  | .loop initial condition increment body =>
    initial.WellFormed names ∧ condition.WellFormed (initial.grown names) ∧
      (increment.IsCode ∧ increment.WellFormed (initial.grown names)) ∧
      Segment.WellFormedAll (increment.grown (initial.grown names)) body
  | .each x collection body =>
    IsName x ∧ collection.WellFormed names ∧ Segment.WellFormedAll (x :: names) body
  | .switch subject body => subject.WellFormed names ∧ Segment.WellFormedAll names body
  | .label name guard =>
    (∃ c ∈ name.toList, ¬Text.isBlank c) ∧
      match guard with
      | some e => e.WellFormed names
      | none => True

def Segment.WellFormed (names : List String) : Segment → Prop
  | .text _ => True
  | .expr e => e.WellFormed names
  | .statement s => s.WellFormed names
  | .block body => Segment.WellFormedAll names body
  | .element name attributes space selfClosing children =>
    IsMarkupName name ∧ (∀ c ∈ space.toList, Text.isBlank c) ∧ Attribute.WellFormedAll names attributes ∧
      (selfClosing = false → Segment.WellFormedAll (Attribute.grownAll names attributes) children)

def Segment.WellFormedAll (names : List String) : List Segment → Prop
  | [] => True
  | s :: rest => s.WellFormed names ∧ Segment.WellFormedAll (s.grown names) rest

def Attribute.WellFormed (names : List String) : Attribute → Prop
  | .flag name => IsMarkupName name
  | .valued name value => IsMarkupName name ∧ Segment.WellFormedAll names value

def Attribute.WellFormedAll (names : List String) : List Attribute → Prop
  | [] => True
  | a :: rest => a.WellFormed names ∧ Attribute.WellFormedAll (a.grown names) rest

end

/-! ## The checks of the compiler -/

theorem isIdentifier_iff {name : String} : isIdentifier name ↔ IsName name := by
  have start (c : Char) : (c.isAlpha || c = '_' || c = '$') = true ↔ IsNameStart c := by
    simp [IsNameStart, Char.isAlpha, Char.isUpper, Char.isLower, Char.le_def, or_assoc]
  have digit (c : Char) : c.isDigit = true ↔ '0' ≤ c ∧ c ≤ '9' := by
    simp [Char.isDigit, Char.le_def]
  have rest (c : Char) : (c.isAlphanum || c = '_' || c = '$') = true ↔
      IsNameStart c ∨ ('0' ≤ c ∧ c ≤ '9') := by
    rw [← start, ← digit]
    simp only [Char.isAlphanum, Bool.or_eq_true, or_assoc, or_comm, or_left_comm]
  unfold isIdentifier IsName
  cases name.toList with
  | nil => simp
  | cons c cs =>
    rw [Bool.and_eq_true, start, List.all_eq_true]
    simp only [rest, List.cons.injEq]
    constructor
    · rintro ⟨hc, hcs⟩
      exact ⟨c, cs, ⟨rfl, rfl⟩, hc, hcs⟩
    · rintro ⟨_, _, ⟨rfl, rfl⟩, hc, hcs⟩
      exact ⟨hc, hcs⟩

theorem isMarkupName_iff {name : String} : isMarkupName name ↔ IsMarkupName name := by
  simp [isMarkupName, IsMarkupName, and_assoc]

theorem dropWhile_eq_nil {cs : List Char} : cs.dropWhile Text.isBlank = [] ↔ ∀ c ∈ cs, Text.isBlank c := by
  induction cs with
  | nil => simp
  | cons c cs ih => cases hc : Text.isBlank c <;> simp [hc, ih]

theorem forall_mem_dropWhile {cs : List Char} :
    (∀ c ∈ cs.dropWhile Text.isBlank, Text.isBlank c) ↔ ∀ c ∈ cs, Text.isBlank c := by
  induction cs with
  | nil => simp
  | cons c cs ih => cases hc : Text.isBlank c <;> simp [hc, ih]

theorem trim_isEmpty_eq_false {cs : List Char} :
    (Text.trim cs).isEmpty = false ↔ ∃ c ∈ cs, ¬Text.isBlank c := by
  have hall : Text.trim cs = [] ↔ ∀ c ∈ cs, Text.isBlank c := by
    simp only [Text.trim, List.reverse_eq_nil_iff, dropWhile_eq_nil, List.mem_reverse, forall_mem_dropWhile]
  rw [← Bool.not_eq_true, List.isEmpty_iff, hall]
  simp

theorem PrefixOp.ofSymbol?_eq_some {symbol : String} {op : PrefixOp} :
    PrefixOp.ofSymbol? symbol = some op ↔ symbol = op.symbol := by
  constructor
  · intro h
    have hs := List.find?_some h
    exact (beq_iff_eq.1 hs).symm
  · rintro rfl
    exact PrefixOp.ofSymbol?_symbol op

theorem BinaryOp.ofSymbol?_eq_some {symbol : String} {op : BinaryOp} :
    BinaryOp.ofSymbol? symbol = some op ↔ symbol = op.symbol := by
  constructor
  · intro h
    have hs := List.find?_some h
    exact (beq_iff_eq.1 hs).symm
  · rintro rfl
    exact BinaryOp.ofSymbol?_symbol op

/-! ## Scopes and names -/

/-- The scope has a variable for just the names given. -/
def Sees (scope : Scope) (names : List String) : Prop := ∀ x, (∃ y, scope.resolve? x = some y) ↔ x ∈ names

section Sees
variable {scope scope' : Scope} {names : List String}

theorem Sees.of_frames (hs : Sees scope names) (h : scope'.frames = scope.frames) : Sees scope' names := by
  intro x
  rw [← hs x, resolve?_eq_innermost?, resolve?_eq_innermost?, h]

theorem Sees.push (hs : Sees scope names) : Sees scope.push names := by
  intro x
  rw [← hs x, resolve?_eq_innermost?, resolve?_eq_innermost?, push_binders]

theorem Sees.declare (hs : Sees scope names) (x : String) : Sees (scope.declare x).2 (x :: names) := by
  intro z
  rw [List.mem_cons, ← hs z, resolve?_eq_innermost?, resolve?_eq_innermost?, declare_binders, innermost?,
    List.find?_cons]
  by_cases hz : x = z
  · simp [hz]
  · have hxz : (x == z) = false := by simpa using hz
    simp [hxz, innermost?, Ne.symm hz]

theorem Sees.visible (hs : Sees scope names) {x : String} {y : Local} (hy : scope.resolve? x = some y) :
    Sees scope (x :: names) := by
  intro z
  rw [List.mem_cons, hs z]
  refine ⟨.inr, ?_⟩
  rintro (rfl | hz)
  · exact (hs z).1 ⟨y, hy⟩
  · exact hz

end Sees

/-! ## Expressions that compile -/

section Expressions
variable {scope : Scope} {names : List String}

mutual

theorem Expr.wellFormed_of_ok (hs : Sees scope names) :
    ∀ (e : Expr) (t : Term), (e.compile scope).result = .ok t → e.WellFormed names
  | .literal _ => by
    intro _ h
    obtain ⟨v, hv, -⟩ := literal_compile_ok.1 h
    exact ⟨v, hv⟩
  | .name _ => fun _ h => isIdentifier_iff.1 (name_compile_ok.1 h).1
  | .member target _ => by
    intro _ h
    obtain ⟨hx, e, he, -⟩ := member_compile_ok.1 h
    exact ⟨Expr.wellFormed_of_ok hs target e he, isIdentifier_iff.1 hx⟩
  | .index target position => by
    intro _ h
    obtain ⟨e, i, he, hi, -⟩ := index_compile_ok.1 h
    exact ⟨Expr.wellFormed_of_ok hs target e he, Expr.wellFormed_of_ok hs position i hi⟩
  | .call target _ args => by
    intro _ h
    obtain ⟨hm, e, es, he, hes, -⟩ := call_compile_ok.1 h
    exact ⟨Expr.wellFormed_of_ok hs target e he, isIdentifier_iff.1 hm, Expr.wellFormedArgs_of_ok hs args es hes⟩
  | .unary _ operand => by
    intro _ h
    rcases unary_compile_ok.1 h with ⟨op, e, ho, he, -⟩ | ⟨op, x, y, ho, hx, hn, hy, -⟩
    · exact .inl ⟨⟨op, PrefixOp.ofSymbol?_eq_some.1 ho⟩, Expr.wellFormed_of_ok hs operand e he⟩
    · exact .inr ⟨⟨op, PrefixOp.ofSymbol?_eq_some.1 ho⟩, x, hx, isIdentifier_iff.1 hn, (hs x).1 ⟨y, hy⟩⟩
  | .binary _ left right => by
    intro _ h
    obtain ⟨op, l, r, ho, hl, hr, -⟩ := binary_compile_ok.1 h
    exact ⟨⟨op, BinaryOp.ofSymbol?_eq_some.1 ho⟩, Expr.wellFormed_of_ok hs left l hl,
      Expr.wellFormed_of_ok hs right r hr⟩
  | .conditional condition ifTrue ifFalse => by
    intro _ h
    obtain ⟨c, a, b, hc, ha, hb, -⟩ := conditional_compile_ok.1 h
    exact ⟨Expr.wellFormed_of_ok hs condition c hc, Expr.wellFormed_of_ok hs ifTrue a ha,
      Expr.wellFormed_of_ok hs ifFalse b hb⟩

theorem Expr.wellFormedArgs_of_ok (hs : Sees scope names) :
    ∀ (es : List Expr) (ts : List Term), (Expr.compileArgs scope es).result = .ok ts →
      Expr.WellFormedArgs names es
  | [] => fun _ _ => trivial
  | e :: rest => by
    intro _ h
    obtain ⟨t, more, ht, hm, -⟩ := compileArgs_cons_ok.1 h
    exact ⟨Expr.wellFormed_of_ok hs e t ht, Expr.wellFormedArgs_of_ok hs rest more hm⟩

end

mutual

theorem Expr.compiles_of_wellFormed (hs : Sees scope names) :
    ∀ e : Expr, e.WellFormed names → ∃ t, (e.compile scope).result = .ok t
  | .literal _, ⟨v, hv⟩ => ⟨_, literal_compile_ok.2 ⟨v, hv, rfl⟩⟩
  | .name _, hw => ⟨_, name_compile_ok.2 ⟨isIdentifier_iff.2 hw, rfl⟩⟩
  | .member target _, ⟨ht, hx⟩ => by
    obtain ⟨e, he⟩ := Expr.compiles_of_wellFormed hs target ht
    exact ⟨_, member_compile_ok.2 ⟨isIdentifier_iff.2 hx, e, he, rfl⟩⟩
  | .index target position, ⟨ht, hp⟩ => by
    obtain ⟨e, he⟩ := Expr.compiles_of_wellFormed hs target ht
    obtain ⟨i, hi⟩ := Expr.compiles_of_wellFormed hs position hp
    exact ⟨_, index_compile_ok.2 ⟨e, i, he, hi, rfl⟩⟩
  | .call target _ args, ⟨ht, hm, ha⟩ => by
    obtain ⟨e, he⟩ := Expr.compiles_of_wellFormed hs target ht
    obtain ⟨es, hes⟩ := Expr.compilesArgs_of_wellFormed hs args ha
    exact ⟨_, call_compile_ok.2 ⟨isIdentifier_iff.2 hm, e, es, he, hes, rfl⟩⟩
  | .unary _ operand, hw => by
    rcases hw with ⟨⟨op, ho⟩, hw⟩ | ⟨⟨op, ho⟩, x, hx, hn, hm⟩
    · obtain ⟨e, he⟩ := Expr.compiles_of_wellFormed hs operand hw
      exact ⟨_, unary_compile_ok.2 (.inl ⟨op, e, PrefixOp.ofSymbol?_eq_some.2 ho, he, rfl⟩)⟩
    · obtain ⟨y, hy⟩ := (hs x).2 hm
      exact ⟨_, unary_compile_ok.2
        (.inr ⟨op, x, y, PrefixOp.ofSymbol?_eq_some.2 ho, hx, isIdentifier_iff.2 hn, hy, rfl⟩)⟩
  | .binary _ left right, ⟨⟨op, ho⟩, hl, hr⟩ => by
    obtain ⟨l, hl⟩ := Expr.compiles_of_wellFormed hs left hl
    obtain ⟨r, hr⟩ := Expr.compiles_of_wellFormed hs right hr
    exact ⟨_, binary_compile_ok.2 ⟨op, l, r, BinaryOp.ofSymbol?_eq_some.2 ho, hl, hr, rfl⟩⟩
  | .conditional condition ifTrue ifFalse, ⟨hc, ha, hb⟩ => by
    obtain ⟨c, hc⟩ := Expr.compiles_of_wellFormed hs condition hc
    obtain ⟨a, ha⟩ := Expr.compiles_of_wellFormed hs ifTrue ha
    obtain ⟨b, hb⟩ := Expr.compiles_of_wellFormed hs ifFalse hb
    exact ⟨_, conditional_compile_ok.2 ⟨c, a, b, hc, ha, hb, rfl⟩⟩

theorem Expr.compilesArgs_of_wellFormed (hs : Sees scope names) :
    ∀ es : List Expr, Expr.WellFormedArgs names es → ∃ ts, (Expr.compileArgs scope es).result = .ok ts
  | [], _ => ⟨[], rfl⟩
  | e :: rest, ⟨he, hr⟩ => by
    obtain ⟨t, ht⟩ := Expr.compiles_of_wellFormed hs e he
    obtain ⟨more, hm⟩ := Expr.compilesArgs_of_wellFormed hs rest hr
    exact ⟨_, compileArgs_cons_ok.2 ⟨t, more, ht, hm, rfl⟩⟩

end

theorem Expr.isChain_iff : ∀ e : Expr,
    e.IsChain ↔ ∃ root path, e.chain = .ok (root, path) ∧ ∀ name ∈ root :: path, isIdentifier name
  | .name x => by
    simp only [Expr.IsChain, Expr.chain, ← isIdentifier_iff]
    constructor
    · intro hx
      exact ⟨x, [], rfl, by simpa using hx⟩
    · rintro ⟨_, _, heq, hn⟩
      cases heq
      exact hn x (by simp)
  | .member target x => by
    simp only [Expr.IsChain, Expr.isChain_iff target, Expr.chain, bind_eq_ok, ← isIdentifier_iff]
    constructor
    · rintro ⟨⟨root, path, hc, hn⟩, hx⟩
      refine ⟨root, path ++ [x], ⟨_, hc, rfl⟩, fun name hm => ?_⟩
      rw [← List.cons_append, List.mem_append, List.mem_singleton] at hm
      rcases hm with hm | rfl
      · exact hn name hm
      · exact hx
    · rintro ⟨_, _, ⟨⟨root, path⟩, hc, heq⟩, hn⟩
      cases heq
      refine ⟨⟨root, path, hc, fun name hm => hn name ?_⟩, hn x (by simp)⟩
      rw [← List.cons_append]
      exact List.mem_append_left _ hm
  | .literal _ | .index _ _ | .call _ _ _ | .unary _ _ | .binary _ _ _ | .conditional _ _ _ => by
    simp [Expr.IsChain, Expr.chain]

theorem compilePlace_iff {parent : Expr} {x : String} :
    (∃ place, (compilePlace scope parent x).result = .ok place) ↔ (Expr.member parent x).IsChain := by
  rw [Expr.isChain_iff]
  constructor
  · rintro ⟨place, hp⟩
    obtain ⟨root, path, hc, hn, -⟩ := compilePlace_ok.1 hp
    exact ⟨root, path, hc, hn⟩
  · rintro ⟨root, path, hc, hn⟩
    exact ⟨_, compilePlace_ok.2 ⟨root, path, hc, hn, rfl⟩⟩

end Expressions

/-! ## Templates that compile are well formed -/

def Part.grown (names : List String) : Part → List String
  | .statement _ s => s.grown names
  | .body _ => names
  | .increment s | .segment s => s.grown names
  | .segments l => Segment.grownAll names l
  | .attribute a => a.grown names
  | .attributes l => Attribute.grownAll names l

def Part.WellFormed (names : List String) : Part → Prop
  | .statement _ s => s.WellFormed names
  | .increment s => s.IsCode ∧ s.WellFormed names
  | .body l | .segments l => Segment.WellFormedAll names l
  | .segment s => s.WellFormed names
  | .attribute a => a.WellFormed names
  | .attributes l => Attribute.WellFormedAll names l

theorem Compiled.sees {scope scope' : Scope} {part : Part} {steps : List Step} {names : List String}
    (h : Compiled scope part steps scope') (hs : Sees scope names) : Sees scope' (part.grown names) := by
  induction h generalizing names with
  | store | label | guarded | evaluate | text | emit | nil | flag | noAttributes => exact hs
  | declare => exact hs.declare _
  | assign _ _ hy =>
    -- the name is visible already, so it counts as grown without a new variable
    exact hs.visible hy
  | when _ _ ih | switch _ _ ih | block _ ih | statement _ ih | update _ ih | valued _ _ ih => exact ih hs
  | choose _ _ _ ihb iho => exact iho (ihb hs)
  | loop hi _ hu hb =>
    exact hs.of_frames (pop_of_frames (hb.frames (hu.frames (hi.frames rfl)))).2
  | each _ _ hb => exact hs.of_frames (pop_of_frames (hb.frames rfl)).2
  | body hl => exact hs.of_frames (pop_of_frames (hl.frames rfl)).2
  | closed _ _ _ ih => simpa [Part.grown, Segment.grown] using ih hs
  | element _ _ _ _ iha ihc => simpa [Part.grown, Segment.grown] using ihc (iha hs)
  | cons _ _ ihs ihr | moreAttributes _ _ ihs ihr => exact ihr (ihs hs)

theorem Compiled.wellFormed {scope scope' : Scope} {part : Part} {steps : List Step} {names : List String}
    (h : Compiled scope part steps scope') (hs : Sees scope names) : part.WellFormed names := by
  induction h generalizing names with
  | store he hp => exact ⟨Expr.wellFormed_of_ok hs _ _ he, compilePlace_iff.1 ⟨_, hp⟩⟩
  | declare he hx | assign he hx => exact ⟨Expr.wellFormed_of_ok hs _ _ he, isIdentifier_iff.1 hx⟩
  | when hc _ ih | switch hc _ ih => exact ⟨Expr.wellFormed_of_ok hs _ _ hc, ih hs⟩
  | choose hc hb _ ihb iho => exact ⟨Expr.wellFormed_of_ok hs _ _ hc, ihb hs, iho (hb.sees hs)⟩
  | loop hi hc hu _ ihi ihu ihb =>
    have hs₁ := hi.sees hs.push
    exact ⟨ihi hs.push, Expr.wellFormed_of_ok hs₁ _ _ hc, ihu hs₁, ihb (hu.sees hs₁)⟩
  | each hx hc _ ih =>
    exact ⟨isIdentifier_iff.1 hx, Expr.wellFormed_of_ok hs _ _ hc, ih (hs.push.declare _)⟩
  | label hn => exact ⟨trim_isEmpty_eq_false.1 hn, trivial⟩
  | guarded hn he => exact ⟨trim_isEmpty_eq_false.1 hn, Expr.wellFormed_of_ok hs _ _ he⟩
  | evaluate he => exact ⟨trivial, Expr.wellFormed_of_ok hs _ _ he⟩
  | update _ ih => exact ⟨trivial, ih hs⟩
  | body _ ih => exact ih hs.push
  | text | nil | noAttributes => trivial
  | emit he => exact Expr.wellFormed_of_ok hs _ _ he
  | statement _ ih | block _ ih => exact ih hs
  | closed hn hb _ ih =>
    exact ⟨isMarkupName_iff.1 hn, List.all_eq_true.1 hb, ih hs, by simp⟩
  | element hn hb ha _ iha ihc =>
    exact ⟨isMarkupName_iff.1 hn, List.all_eq_true.1 hb, iha hs, fun _ => ihc (ha.sees hs)⟩
  | cons hf _ ihs ihr | moreAttributes hf _ ihs ihr => exact ⟨ihs hs, ihr (hf.sees hs)⟩
  | flag hn => exact isMarkupName_iff.1 hn
  | valued hn _ ih => exact ⟨isMarkupName_iff.1 hn, ih hs⟩

/-! ## Well-formed templates compile -/

theorem body_compiles {scope : Scope} {l : List Segment}
    (h : ∃ steps scope', Compiled scope.push (.segments l) steps scope') :
    ∃ b scope', Compiled scope (.body l) [.block b] scope' := by
  obtain ⟨steps, scope', hl⟩ := h
  exact ⟨_, _, .body hl⟩

mutual

theorem Statement.compiled_of_wellFormed : ∀ (s : Statement) (fresh : Bool) (scope : Scope) (names : List String),
    Sees scope names → s.WellFormed names → ∃ step scope', Compiled scope (.statement fresh s) [step] scope'
  | .assign (.member parent x) value, _, _, _, hs, hw => by
    obtain ⟨e, he⟩ := Expr.compiles_of_wellFormed hs value hw.1
    obtain ⟨place, hp⟩ := compilePlace_iff.2 hw.2
    exact ⟨_, _, .store he hp⟩
  | .assign (.name x) value, fresh, scope, _, hs, hw => by
    obtain ⟨e, he⟩ := Expr.compiles_of_wellFormed hs value hw.1
    have hx := isIdentifier_iff.2 hw.2
    cases hy : scope.resolve? x with
    | none => exact ⟨_, _, .declare he hx (.inr hy)⟩
    | some y =>
      cases fresh with
      | true => exact ⟨_, _, .declare he hx (.inl rfl)⟩
      | false => exact ⟨_, _, .assign he hx hy⟩
  | .when condition body, _, scope, names, hs, hw => by
    obtain ⟨c, hc⟩ := Expr.compiles_of_wellFormed hs condition hw.1
    obtain ⟨b, _, hb⟩ := body_compiles (Segment.compiledAll_of_wellFormed body _ names hs.push hw.2)
    exact ⟨_, _, .when hc hb⟩
  | .choose condition body otherwise, _, scope, names, hs, hw => by
    obtain ⟨c, hc⟩ := Expr.compiles_of_wellFormed hs condition hw.1
    obtain ⟨b, _, hb⟩ := body_compiles (Segment.compiledAll_of_wellFormed body _ names hs.push hw.2.1)
    obtain ⟨o, _, ho⟩ := body_compiles
      (Segment.compiledAll_of_wellFormed otherwise _ names (hb.sees hs).push hw.2.2)
    exact ⟨_, _, .choose hc hb ho⟩
  | .loop initial condition increment body, _, scope, names, hs, hw => by
    obtain ⟨wi, wc, wu, wb⟩ := hw
    obtain ⟨i, scope₁, hi⟩ := Statement.compiled_of_wellFormed initial true _ names hs.push wi
    have hs₁ := hi.sees hs.push
    obtain ⟨c, hc⟩ := Expr.compiles_of_wellFormed hs₁ condition wc
    obtain ⟨u, scope₂, hu⟩ : ∃ u scope₂, Compiled scope₁ (.increment increment) [u] scope₂ := by
      cases increment with
      | expr e =>
        obtain ⟨t, ht⟩ := Expr.compiles_of_wellFormed hs₁ e wu.2
        exact ⟨_, _, .evaluate ht⟩
      | statement s =>
        obtain ⟨u, scope₂, hu⟩ := Statement.compiled_of_wellFormed s false scope₁ _ hs₁ wu.2
        exact ⟨u, scope₂, .update hu⟩
      | _ => exact wu.1.elim
    obtain ⟨b, _, hb⟩ := body_compiles (Segment.compiledAll_of_wellFormed body _ _ (hu.sees hs₁).push wb)
    exact ⟨_, _, .loop hi hc hu hb⟩
  | .each x collection body, _, scope, names, hs, hw => by
    obtain ⟨c, hc⟩ := Expr.compiles_of_wellFormed hs collection hw.2.1
    obtain ⟨b, _, hb⟩ := body_compiles
      (Segment.compiledAll_of_wellFormed body _ _ (hs.push.declare x).push hw.2.2)
    exact ⟨_, _, .each (isIdentifier_iff.2 hw.1) hc hb⟩
  | .switch subject body, _, scope, names, hs, hw => by
    obtain ⟨e, he⟩ := Expr.compiles_of_wellFormed hs subject hw.1
    obtain ⟨b, _, hb⟩ := body_compiles (Segment.compiledAll_of_wellFormed body _ names hs.push hw.2)
    exact ⟨_, _, .switch he hb⟩
  | .label name none, _, _, _, _, hw => ⟨_, _, .label (trim_isEmpty_eq_false.2 hw.1)⟩
  | .label name (some guard), _, _, _, hs, hw => by
    obtain ⟨e, he⟩ := Expr.compiles_of_wellFormed hs guard hw.2
    exact ⟨_, _, .guarded (trim_isEmpty_eq_false.2 hw.1) he⟩

theorem Segment.compiled_of_wellFormed : ∀ (s : Segment) (scope : Scope) (names : List String),
    Sees scope names → s.WellFormed names → ∃ steps scope', Compiled scope (.segment s) steps scope'
  | .text _, _, _, _, _ => ⟨_, _, .text⟩
  | .expr e, _, _, hs, hw => by
    obtain ⟨t, ht⟩ := Expr.compiles_of_wellFormed hs e hw
    exact ⟨_, _, .emit ht⟩
  | .statement s, scope, names, hs, hw => by
    obtain ⟨step, scope', h⟩ := Statement.compiled_of_wellFormed s false scope names hs hw
    exact ⟨_, _, .statement h⟩
  | .block body, scope, names, hs, hw => by
    obtain ⟨b, _, hb⟩ := body_compiles (Segment.compiledAll_of_wellFormed body _ names hs.push hw)
    exact ⟨_, _, .block hb⟩
  | .element name attributes space selfClosing children, scope, names, hs, hw => by
    obtain ⟨hn, hb, wa, wc⟩ := hw
    obtain ⟨inTag, scope₁, ha⟩ := Attribute.compiledAll_of_wellFormed attributes scope names hs wa
    cases selfClosing with
    | true => exact ⟨_, _, .closed (isMarkupName_iff.2 hn) (List.all_eq_true.2 hb) ha⟩
    | false =>
      obtain ⟨inside, scope₂, hc⟩ := Segment.compiledAll_of_wellFormed children scope₁ _ (ha.sees hs) (wc rfl)
      exact ⟨_, _, .element (isMarkupName_iff.2 hn) (List.all_eq_true.2 hb) ha hc⟩

theorem Segment.compiledAll_of_wellFormed : ∀ (l : List Segment) (scope : Scope) (names : List String),
    Sees scope names → Segment.WellFormedAll names l → ∃ steps scope', Compiled scope (.segments l) steps scope'
  | [], _, _, _, _ => ⟨_, _, .nil⟩
  | s :: rest, scope, names, hs, hw => by
    obtain ⟨steps, scope₁, h⟩ := Segment.compiled_of_wellFormed s scope names hs hw.1
    obtain ⟨more, scope₂, hr⟩ := Segment.compiledAll_of_wellFormed rest scope₁ _ (h.sees hs) hw.2
    exact ⟨_, _, .cons h hr⟩

theorem Attribute.compiled_of_wellFormed : ∀ (a : Attribute) (scope : Scope) (names : List String),
    Sees scope names → a.WellFormed names → ∃ steps scope', Compiled scope (.attribute a) steps scope'
  | .flag _, _, _, _, hw => ⟨_, _, .flag (isMarkupName_iff.2 hw)⟩
  | .valued _ value, scope, names, hs, hw => by
    obtain ⟨steps, scope', h⟩ := Segment.compiledAll_of_wellFormed value scope names hs hw.2
    exact ⟨_, _, .valued (isMarkupName_iff.2 hw.1) h⟩

theorem Attribute.compiledAll_of_wellFormed : ∀ (l : List Attribute) (scope : Scope) (names : List String),
    Sees scope names → Attribute.WellFormedAll names l → ∃ steps scope', Compiled scope (.attributes l) steps scope'
  | [], _, _, _, _ => ⟨_, _, .noAttributes⟩
  | a :: rest, scope, names, hs, hw => by
    obtain ⟨steps, scope₁, h⟩ := Attribute.compiled_of_wellFormed a scope names hs hw.1
    obtain ⟨more, scope₂, hr⟩ := Attribute.compiledAll_of_wellFormed rest scope₁ _ (h.sees hs) hw.2
    exact ⟨_, _, .moreAttributes h hr⟩

end

theorem compiles_iff_wellFormed (segments : List Segment) :
    (∃ program, (compile segments).result = .ok program) ↔ Segment.WellFormedAll [] segments := by
  have hs : Sees Scope.empty.push [] := by simp [Sees, Scope.resolve?, Scope.push, Scope.empty]
  constructor
  · rintro ⟨program, h⟩
    obtain ⟨steps, scope, hc, -⟩ := compile_ok_iff.1 h
    exact hc.wellFormed hs
  · intro hw
    obtain ⟨steps, scope, hc⟩ := Segment.compiledAll_of_wellFormed segments _ [] hs hw
    exact ⟨_, compile_ok_iff.2 ⟨steps, scope, hc, rfl⟩⟩

/-- A template compiles just when it is well formed, and any other is refused with a fault. -/
theorem compile_accepts_wellFormed (segments : List Segment) :
    ((∃ program, (compile segments).result = .ok program) ↔ Segment.WellFormedAll [] segments) ∧
      ((∃ fault, (compile segments).result = .error fault) ↔ ¬Segment.WellFormedAll [] segments) := by
  refine ⟨compiles_iff_wellFormed segments, ?_⟩
  rw [← compiles_iff_wellFormed segments]
  cases (compile segments).result <;> simp

end Stencil
