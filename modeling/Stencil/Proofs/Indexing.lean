import Mathlib
import Stencil.Proofs.Acceptance
import Stencil.Proofs.Exactness
import Stencil.Proofs.Faithful
import Stencil.Proofs.Mapping
import Stencil.Proofs.Relocation
import Stencil.Proofs.Rounds
/-!
# Loops over indices

Going through the items of a collection of the model is the same as counting up to its length and writing
`model.d[i]` for the item. Both templates are compared as they stand, by name: replacing names in a body that
assigns nothing is a substitution lemma (`Expr.substitute_agrees`, `Segment.substituteAll_agrees`), and the
counter says which items are left (`rounds_agree_items`).
-/

namespace Stencil

/-! ## Bodies that assign nothing -/

mutual

/-- Without `++` and `--`. -/
def Expr.Passive : Expr → Prop
  | .literal _ | .name _ => True
  | .member target _ => target.Passive
  | .index target position => target.Passive ∧ position.Passive
  | .call target _ args => target.Passive ∧ Expr.PassiveArgs args
  | .unary operator operand => operatorSymbol operator ∉ ["++", "--"] ∧ operand.Passive
  | .binary _ left right => left.Passive ∧ right.Passive
  | .conditional condition ifTrue ifFalse => condition.Passive ∧ ifTrue.Passive ∧ ifFalse.Passive

def Expr.PassiveArgs : List Expr → Prop
  | [] => True
  | e :: rest => e.Passive ∧ Expr.PassiveArgs rest

end

mutual

/-- Conditions are the only statements. -/
def Statement.Passive : Statement → Prop
  | .when condition body => condition.Passive ∧ Segment.PassiveAll body
  | .choose condition body otherwise =>
    condition.Passive ∧ Segment.PassiveAll body ∧ Segment.PassiveAll otherwise
  | _ => False

def Segment.Passive : Segment → Prop
  | .text _ => True
  | .expr e => e.Passive
  | .statement s => s.Passive
  | .block body => Segment.PassiveAll body
  | .element _ attributes _ _ children => Attribute.PassiveAll attributes ∧ Segment.PassiveAll children

def Segment.PassiveAll : List Segment → Prop
  | [] => True
  | s :: rest => s.Passive ∧ Segment.PassiveAll rest

def Attribute.Passive : Attribute → Prop
  | .flag _ => True
  | .valued _ value => Segment.PassiveAll value

def Attribute.PassiveAll : List Attribute → Prop
  | [] => True
  | a :: rest => a.Passive ∧ Attribute.PassiveAll rest

end

/-! ## Substitution -/

mutual

/-- The expression with `σ x` for each bare name `x`. -/
def Expr.substitute (σ : String → Expr) : Expr → Expr
  | .literal token => .literal token
  | .name x => σ x
  | .member target x => .member (target.substitute σ) x
  | .index target position => .index (target.substitute σ) (position.substitute σ)
  | .call target method args => .call (target.substitute σ) method (Expr.substituteArgs σ args)
  | .unary operator operand => .unary operator (operand.substitute σ)
  | .binary operator left right => .binary operator (left.substitute σ) (right.substitute σ)
  | .conditional condition ifTrue ifFalse =>
    .conditional (condition.substitute σ) (ifTrue.substitute σ) (ifFalse.substitute σ)

def Expr.substituteArgs (σ : String → Expr) : List Expr → List Expr
  | [] => []
  | e :: rest => e.substitute σ :: Expr.substituteArgs σ rest

end

mutual

/-- Statements other than conditions can bind names; they are left as they are. -/
def Statement.substitute (σ : String → Expr) : Statement → Statement
  | .when condition body => .when (condition.substitute σ) (Segment.substituteAll σ body)
  | .choose condition body otherwise =>
    .choose (condition.substitute σ) (Segment.substituteAll σ body) (Segment.substituteAll σ otherwise)
  | s => s

def Segment.substitute (σ : String → Expr) : Segment → Segment
  | .text s => .text s
  | .expr e => .expr (e.substitute σ)
  | .statement s => .statement (s.substitute σ)
  | .block body => .block (Segment.substituteAll σ body)
  | .element name attributes space selfClosing children =>
    .element name (Attribute.substituteAll σ attributes) space selfClosing (Segment.substituteAll σ children)

def Segment.substituteAll (σ : String → Expr) : List Segment → List Segment
  | [] => []
  | s :: rest => s.substitute σ :: Segment.substituteAll σ rest

def Attribute.substitute (σ : String → Expr) : Attribute → Attribute
  | .flag name => .flag name
  | .valued name value => .valued name (Segment.substituteAll σ value)

def Attribute.substituteAll (σ : String → Expr) : List Attribute → List Attribute
  | [] => []
  | a :: rest => a.substitute σ :: Attribute.substituteAll σ rest

end

/-! ### Well-formed expressions in the place of names -/

/-- The expressions in the place of names are well formed wherever the names are. -/
def Spells (σ : String → Expr) : Prop := ∀ names x, (σ x).WellFormed names ↔ IsName x

section WellFormed
variable {σ : String → Expr}

mutual

/-- No local variable has to be there for a passive expression. -/
theorem Expr.substitute_wellFormed (hσ : Spells σ) : ∀ (e : Expr) (names names' : List String), e.Passive →
    ((e.substitute σ).WellFormed names' ↔ e.WellFormed names)
  | .literal _, _, _, _ => Iff.rfl
  | .name x, _, names', _ => hσ names' x
  | .member target _, names, names', hp => by
    rw [Expr.substitute, Expr.WellFormed, Expr.WellFormed, Expr.substitute_wellFormed hσ target names names' hp]
  | .index target position, names, names', hp => by
    rw [Expr.substitute, Expr.WellFormed, Expr.WellFormed, Expr.substitute_wellFormed hσ target names names' hp.1,
      Expr.substitute_wellFormed hσ position names names' hp.2]
  | .call target _ args, names, names', hp => by
    rw [Expr.substitute, Expr.WellFormed, Expr.WellFormed, Expr.substitute_wellFormed hσ target names names' hp.1,
      Expr.substituteArgs_wellFormed hσ args names names' hp.2]
  | .unary operator operand, names, names', hp => by
    have hno : ¬∃ op : UpdateOp, operatorSymbol operator = op.symbol := by
      rintro ⟨op, h⟩
      cases op <;> exact hp.1 (by simp [h, UpdateOp.symbol])
    rw [Expr.substitute, Expr.WellFormed, Expr.WellFormed, Expr.substitute_wellFormed hσ operand names names' hp.2]
    simp only [hno, false_and, or_false]
  | .binary _ left right, names, names', hp => by
    rw [Expr.substitute, Expr.WellFormed, Expr.WellFormed, Expr.substitute_wellFormed hσ left names names' hp.1,
      Expr.substitute_wellFormed hσ right names names' hp.2]
  | .conditional condition ifTrue ifFalse, names, names', hp => by
    rw [Expr.substitute, Expr.WellFormed, Expr.WellFormed,
      Expr.substitute_wellFormed hσ condition names names' hp.1,
      Expr.substitute_wellFormed hσ ifTrue names names' hp.2.1,
      Expr.substitute_wellFormed hσ ifFalse names names' hp.2.2]

theorem Expr.substituteArgs_wellFormed (hσ : Spells σ) : ∀ (es : List Expr) (names names' : List String),
    Expr.PassiveArgs es →
      (Expr.WellFormedArgs names' (Expr.substituteArgs σ es) ↔ Expr.WellFormedArgs names es)
  | [], _, _, _ => Iff.rfl
  | e :: rest, names, names', hp => by
    rw [Expr.substituteArgs, Expr.WellFormedArgs, Expr.WellFormedArgs,
      Expr.substitute_wellFormed hσ e names names' hp.1, Expr.substituteArgs_wellFormed hσ rest names names' hp.2]

end

mutual

theorem Statement.substitute_wellFormed (hσ : Spells σ) : ∀ (s : Statement) (names names' : List String), s.Passive →
    ((s.substitute σ).WellFormed names' ↔ s.WellFormed names)
  | .when condition body, names, names', hp => by
    rw [Statement.substitute, Statement.WellFormed, Statement.WellFormed,
      Expr.substitute_wellFormed hσ condition names names' hp.1,
      Segment.substituteAll_wellFormed hσ body names names' hp.2]
  | .choose condition body otherwise, names, names', hp => by
    rw [Statement.substitute, Statement.WellFormed, Statement.WellFormed,
      Expr.substitute_wellFormed hσ condition names names' hp.1,
      Segment.substituteAll_wellFormed hσ body names names' hp.2.1,
      Segment.substituteAll_wellFormed hσ otherwise names names' hp.2.2]
  | .assign _ _, _, _, hp | .loop _ _ _ _, _, _, hp | .each _ _ _, _, _, hp | .switch _ _, _, _, hp
  | .label _ _, _, _, hp => hp.elim

theorem Segment.substitute_wellFormed (hσ : Spells σ) : ∀ (s : Segment) (names names' : List String), s.Passive →
    ((s.substitute σ).WellFormed names' ↔ s.WellFormed names)
  | .text _, _, _, _ => Iff.rfl
  | .expr e, names, names', hp => Expr.substitute_wellFormed hσ e names names' hp
  | .statement s, names, names', hp => Statement.substitute_wellFormed hσ s names names' hp
  | .block body, names, names', hp => Segment.substituteAll_wellFormed hσ body names names' hp
  | .element _ attributes _ _ children, names, names', hp => by
    rw [Segment.substitute, Segment.WellFormed, Segment.WellFormed,
      Attribute.substituteAll_wellFormed hσ attributes names names' hp.1,
      Segment.substituteAll_wellFormed hσ children (Attribute.grownAll names attributes) _ hp.2]

theorem Segment.substituteAll_wellFormed (hσ : Spells σ) : ∀ (l : List Segment) (names names' : List String),
    Segment.PassiveAll l →
      (Segment.WellFormedAll names' (Segment.substituteAll σ l) ↔ Segment.WellFormedAll names l)
  | [], _, _, _ => Iff.rfl
  | s :: rest, names, names', hp => by
    rw [Segment.substituteAll, Segment.WellFormedAll, Segment.WellFormedAll,
      Segment.substitute_wellFormed hσ s names names' hp.1,
      Segment.substituteAll_wellFormed hσ rest (s.grown names) _ hp.2]

theorem Attribute.substitute_wellFormed (hσ : Spells σ) : ∀ (a : Attribute) (names names' : List String), a.Passive →
    ((a.substitute σ).WellFormed names' ↔ a.WellFormed names)
  | .flag _, _, _, _ => Iff.rfl
  | .valued _ value, names, names', hp => by
    rw [Attribute.substitute, Attribute.WellFormed, Attribute.WellFormed,
      Segment.substituteAll_wellFormed hσ value names names' hp]

theorem Attribute.substituteAll_wellFormed (hσ : Spells σ) : ∀ (l : List Attribute) (names names' : List String),
    Attribute.PassiveAll l →
      (Attribute.WellFormedAll names' (Attribute.substituteAll σ l) ↔ Attribute.WellFormedAll names l)
  | [], _, _, _ => Iff.rfl
  | a :: rest, names, names', hp => by
    rw [Attribute.substituteAll, Attribute.WellFormedAll, Attribute.WellFormedAll,
      Attribute.substitute_wellFormed hσ a names names' hp.1,
      Attribute.substituteAll_wellFormed hσ rest (a.grown names) _ hp.2]

end

end WellFormed

/-! ### Values of expressions -/

/-- Both runs halt with the same fault. -/
def SameFault (e f : Halt) : Prop := ∃ fault, e = .fault fault ∧ f = .fault fault

/-- The frames are these two. -/
def Standing (F G frames frames' : Direct.Frames) : Prop := frames = F ∧ frames' = G

/-- In the frames `F` the expression for the name has the value that the name has in the frames `G`. -/
def ReadsAs (model : Value) (σ : String → Expr) (F G : Direct.Frames) (x : String) : Prop :=
  (σ x).direct model F = .ok ((Direct.Frames.value? G x).getD (modelField model x)) F

section Expressions
variable {σ : String → Expr} {model : Value} {F G : Direct.Frames}

theorem Direct.Eval.ofExcept_sameFault {α : Type} {R : Direct.Frames → Direct.Frames → Prop} (r : Except Fault α) :
    AgreesUpTo SameFault R R (Direct.Eval.ofExcept r) (Direct.Eval.ofExcept r) := by
  cases r with
  | ok a => exact .pure a
  | error f => exact .throw ⟨f, rfl, rfl⟩

mutual

/-- A passive expression has the value that it has with other expressions in the place of its names. -/
theorem Expr.substitute_agrees : ∀ e : Expr, e.Passive → (∀ x ∈ e.bareNames, ReadsAs model σ F G x) →
    AgreesUpTo SameFault (Standing F G) (Standing F G) ((e.substitute σ).direct model) (e.direct model)
  | .literal token, _, _ => by
    rw [Expr.substitute, Expr.direct]
    cases Literal.decode token <;> exact .pure _
  | .name x, _, h => by
    rintro _ _ ⟨rfl, rfl⟩
    have hx : ReadsAs model σ _ _ x := h x (by simp [Expr.bareNames])
    rw [ReadsAs] at hx
    simp only [Expr.substitute, Expr.direct, hx, Direct.Eval.read, Standing, and_self]
  | .member target _, hp, h => .bind (Expr.substitute_agrees target hp h) fun _ => .pure _
  | .index target position, hp, h => by
    obtain ⟨ht, hi⟩ := List.forall_mem_append.1 h
    exact .bind (Expr.substitute_agrees target hp.1 ht) fun _ =>
      .bind (Expr.substitute_agrees position hp.2 hi) fun _ => .pure _
  | .call target _ args, hp, h => by
    obtain ⟨ht, ha⟩ := List.forall_mem_append.1 h
    exact .bind (Expr.substitute_agrees target hp.1 ht) fun _ =>
      .bind (Expr.substituteArgs_agrees args hp.2 ha) fun _ => Direct.Eval.ofExcept_sameFault _
  | .unary operator operand, hp, h => by
    rw [Expr.substitute, Expr.direct, Expr.direct]
    cases ho : PrefixOp.ofSymbol? (operatorSymbol operator) with
    | none => exact .pure _
    | some op =>
      cases op with
      | unary op => exact .bind (Expr.substitute_agrees operand hp.2 h) fun _ => Direct.Eval.ofExcept_sameFault _
      | update op =>
        -- the only operators that change a variable, and so need a name after them
        have hs : operatorSymbol operator = op.symbol := PrefixOp.ofSymbol?_eq_some.1 ho
        cases op <;> exact absurd (by simp [hs, UpdateOp.symbol]) hp.1
  | .binary operator left right, hp, h => by
    obtain ⟨hl, hr⟩ := List.forall_mem_append.1 h
    rw [Expr.substitute, Expr.direct, Expr.direct]
    cases BinaryOp.ofSymbol? (operatorSymbol operator) with
    | none => exact .pure _
    | some op =>
      refine .bind (Expr.substitute_agrees left hp.1 hl) fun v => ?_
      split
      · exact .pure v
      · exact .bind (Expr.substitute_agrees right hp.2 hr) fun _ => Direct.Eval.ofExcept_sameFault _
  | .conditional condition ifTrue ifFalse, hp, h => by
    obtain ⟨hct, hf⟩ := List.forall_mem_append.1 h
    obtain ⟨hc, ht⟩ := List.forall_mem_append.1 hct
    refine .bind (Expr.substitute_agrees condition hp.1 hc) fun v => ?_
    split
    · exact Expr.substitute_agrees ifTrue hp.2.1 ht
    · exact Expr.substitute_agrees ifFalse hp.2.2 hf

theorem Expr.substituteArgs_agrees : ∀ es : List Expr, Expr.PassiveArgs es →
    (∀ x ∈ Expr.bareNamesArgs es, ReadsAs model σ F G x) →
      AgreesUpTo SameFault (Standing F G) (Standing F G) (Expr.directArgs model (Expr.substituteArgs σ es))
        (Expr.directArgs model es)
  | [], _, _ => .pure _
  | e :: rest, hp, h => by
    obtain ⟨he, hr⟩ := List.forall_mem_append.1 h
    exact .bind (Expr.substitute_agrees e hp.1 he) fun _ =>
      .bind (Expr.substituteArgs_agrees rest hp.2 hr) fun _ => .pure _

end

end Expressions

/-! ### Runs of bodies -/

/-- The states have the frames `F` and `G` and are otherwise the same, with this model. -/
def Beside (model : Value) (F G : Direct.Frames) (s t : Direct.State) : Prop :=
  s.frames = F ∧ s.model = model ∧ t = { s with frames := G }

section Runs
variable {σ : String → Expr} {model : Value} {F G : Direct.Frames} {options : Options} {rounds : Nat}
  {rule : Direct.LoopRule}

theorem runDirect_beside {e e' : Expr}
    (h : AgreesUpTo SameFault (Standing F G) (Standing F G) (e.direct model) (e'.direct model)) :
    AgreesUpTo SameFault (Beside model F G) (Beside model F G) e.runDirect e'.runDirect := by
  rintro s _ ⟨rfl, rfl, rfl⟩
  simp only [Expr.runDirect, Direct.Exec.eval]
  rcases h.ends ⟨rfl, rfl⟩ with ⟨v, _, _, hx, hy, rfl, rfl⟩ | ⟨e, f, _, _, hx, hy, hf⟩
  · simp [hx, hy, Beside]
  · simpa [hx, hy] using hf

theorem write_beside (s : String) :
    AgreesUpTo SameFault (Beside model F G) (Beside model F G) (Direct.Exec.write s) (Direct.Exec.write s) := by
  rintro s _ ⟨rfl, rfl, rfl⟩
  exact ⟨rfl, rfl, rfl, rfl⟩

theorem tick_beside (limit : Option UInt64) :
    AgreesUpTo SameFault (Beside model F G) (Beside model F G) (Direct.Exec.tick limit) (Direct.Exec.tick limit) := by
  rintro s _ ⟨rfl, rfl, rfl⟩
  cases limit with
  | none => exact ⟨rfl, rfl, rfl, rfl⟩
  | some limit =>
    by_cases hl : s.iterations + 1 ≤ limit.toNat
    · simp [Direct.Exec.tick, hl, Beside]
    · simp [Direct.Exec.tick, hl, SameFault]

theorem inFrame_beside {frame frame' : Direct.Frame} {x y : Direct.Exec Unit}
    (h : AgreesUpTo SameFault (Beside model (frame :: F) (frame' :: G)) (Beside model (frame :: F) (frame' :: G)) x y) :
    AgreesUpTo SameFault (Beside model F G) (Beside model F G) (Direct.Exec.inFrame frame x)
      (Direct.Exec.inFrame frame' y) := by
  have hpush : AgreesUpTo SameFault (Beside model F G) (Beside model (frame :: F) (frame' :: G))
      (Direct.Exec.push frame) (Direct.Exec.push frame') := by
    rintro s _ ⟨rfl, rfl, rfl⟩
    exact ⟨rfl, rfl, rfl, rfl⟩
  have hpop : AgreesUpTo SameFault (Beside model (frame :: F) (frame' :: G)) (Beside model F G)
      Direct.Exec.pop Direct.Exec.pop := by
    rintro s _ ⟨hs, rfl, rfl⟩
    exact ⟨rfl, by simp [hs], rfl, rfl⟩
  exact .bind hpush fun _ => .bind h fun _ => hpop

/-- The name reads as the expression for it, also in blocks that bind nothing. -/
def ReadsInside (model : Value) (σ : String → Expr) (F G : Direct.Frames) (x : String) : Prop :=
  ∀ n, ReadsAs model σ (List.replicate n [] ++ F) (List.replicate n [] ++ G) x

theorem ReadsInside.here {x : String} (h : ReadsInside model σ F G x) : ReadsAs model σ F G x := h 0

theorem ReadsInside.push {x : String} (h : ReadsInside model σ F G x) : ReadsInside model σ ([] :: F) ([] :: G) x := by
  intro n
  have hn := h (n + 1)
  rwa [List.replicate_succ', List.append_assoc, List.append_assoc] at hn

theorem Expr.substitute_runs {e : Expr} (hp : e.Passive) (h : ∀ x ∈ e.bareNames, ReadsInside model σ F G x) :
    AgreesUpTo SameFault (Beside model F G) (Beside model F G) (e.substitute σ).runDirect e.runDirect :=
  runDirect_beside (Expr.substitute_agrees e hp fun x hx => (h x hx).here)

mutual

theorem Statement.substitute_agrees : ∀ (s : Statement) (fresh : Bool) (F G : Direct.Frames), s.Passive →
    (∀ x ∈ s.bareNames, ReadsInside model σ F G x) →
      AgreesUpTo SameFault (Beside model F G) (Beside model F G)
        ((s.substitute σ).direct rule options rounds fresh) (s.direct rule options rounds fresh)
  | .when condition body, _, F, G, hp, h => by
    obtain ⟨hc, hb⟩ := List.forall_mem_append.1 h
    refine .bind (Expr.substitute_runs hp.1 hc) fun v => ?_
    split
    · exact inFrame_beside (Segment.substituteAll_agrees body _ _ hp.2 fun x hx => (hb x hx).push)
    · exact .pure ()
  | .choose condition body otherwise, _, F, G, hp, h => by
    obtain ⟨hcb, ho⟩ := List.forall_mem_append.1 h
    obtain ⟨hc, hb⟩ := List.forall_mem_append.1 hcb
    refine .bind (Expr.substitute_runs hp.1 hc) fun v => ?_
    split
    · exact inFrame_beside (Segment.substituteAll_agrees body _ _ hp.2.1 fun x hx => (hb x hx).push)
    · exact inFrame_beside (Segment.substituteAll_agrees otherwise _ _ hp.2.2 fun x hx => (ho x hx).push)
  | .assign _ _, _, _, _, hp, _ | .loop _ _ _ _, _, _, _, hp, _ | .each _ _ _, _, _, _, hp, _
  | .switch _ _, _, _, _, hp, _ | .label _ _, _, _, _, hp, _ => hp.elim

theorem Segment.substitute_agrees : ∀ (s : Segment) (F G : Direct.Frames), s.Passive →
    (∀ x ∈ s.bareNames, ReadsInside model σ F G x) →
      AgreesUpTo SameFault (Beside model F G) (Beside model F G) ((s.substitute σ).direct rule options rounds)
        (s.direct rule options rounds)
  | .text s, _, _, _, _ => write_beside s
  | .expr _, _, _, hp, h => .bind (Expr.substitute_runs hp h) fun _ => write_beside _
  | .statement s, F, G, hp, h => Statement.substitute_agrees s false F G hp h
  | .block body, F, G, hp, h =>
    inFrame_beside (Segment.substituteAll_agrees body _ _ hp fun x hx => (h x hx).push)
  | .element _ attributes _ selfClosing children, F, G, hp, h => by
    obtain ⟨ha, hc⟩ := List.forall_mem_append.1 h
    refine .bind (write_beside _) fun _ => .bind (Attribute.substituteAll_agrees attributes F G hp.1 ha) fun _ =>
      .bind (write_beside _) fun _ => ?_
    cases selfClosing with
    | true => exact write_beside _
    | false =>
      exact .bind (write_beside _) fun _ =>
        .bind (Segment.substituteAll_agrees children F G hp.2 hc) fun _ => write_beside _

/-- A passive body does what it does with other expressions in the place of its names. -/
theorem Segment.substituteAll_agrees : ∀ (l : List Segment) (F G : Direct.Frames), Segment.PassiveAll l →
    (∀ x ∈ Segment.bareNamesAll l, ReadsInside model σ F G x) →
      AgreesUpTo SameFault (Beside model F G) (Beside model F G)
        (Segment.directAll rule options rounds (Segment.substituteAll σ l)) (Segment.directAll rule options rounds l)
  | [], _, _, _, _ => .pure ()
  | s :: rest, F, G, hp, h => by
    obtain ⟨hs, hr⟩ := List.forall_mem_append.1 h
    exact .bind (Segment.substitute_agrees s F G hp.1 hs) fun _ => Segment.substituteAll_agrees rest F G hp.2 hr

theorem Attribute.substitute_agrees : ∀ (a : Attribute) (F G : Direct.Frames), a.Passive →
    (∀ x ∈ a.bareNames, ReadsInside model σ F G x) →
      AgreesUpTo SameFault (Beside model F G) (Beside model F G) ((a.substitute σ).direct rule options rounds)
        (a.direct rule options rounds)
  | .flag _, _, _, _, _ => write_beside _
  | .valued _ value, F, G, hp, h =>
    .bind (write_beside _) fun _ => .bind (Segment.substituteAll_agrees value F G hp h) fun _ => write_beside _

theorem Attribute.substituteAll_agrees : ∀ (l : List Attribute) (F G : Direct.Frames), Attribute.PassiveAll l →
    (∀ x ∈ Attribute.bareNamesAll l, ReadsInside model σ F G x) →
      AgreesUpTo SameFault (Beside model F G) (Beside model F G)
        (Attribute.directAll rule options rounds (Attribute.substituteAll σ l))
        (Attribute.directAll rule options rounds l)
  | [], _, _, _, _ => .pure ()
  | a :: rest, F, G, hp, h => by
    obtain ⟨ha, hr⟩ := List.forall_mem_append.1 h
    exact .bind (Attribute.substitute_agrees a F G hp.1 ha) fun _ => Attribute.substituteAll_agrees rest F G hp.2 hr

end

end Runs

/-! ## Collections that can be counted -/

/-- An array or a string of at most `2⁵³` items, or missing data. -/
def Value.IsListing : Value → Prop
  | .array items => items.length ≤ 2 ^ 53
  | .string s => s.length ≤ 2 ^ 53
  | .undefined | .null => True
  | _ => False

/-- The value has these items, its length tells their number and its indices tell their places. -/
structure Value.Lists (v : Value) (items : List Value) : Prop where
  items_eq : v.items = .ok items
  size : items.length ≤ 2 ^ 53
  below : ∀ k ≤ items.length, OrderOp.less.test (.ofNat k) (v.member "length") = decide (k < items.length)
  item : ∀ k item, items[k]? = some item → v.index (.ofNat k) = item

theorem less_ofNat {m n : Nat} (hm : m ≤ 2 ^ 53) (hn : n ≤ 2 ^ 53) :
    OrderOp.less.test (.ofNat m) (.ofNat n) = decide (m < n) := by
  rw [OrderOp.test, Value.compare?_ofNat hm hn, Bool.eq_iff_iff]
  simp [Nat.compare_eq_lt]

/-- No number is less than missing data. -/
theorem less_undefined (k : Nat) : OrderOp.less.test (.ofNat k) .undefined = false := by
  rw [OrderOp.test, Value.compare?_of_number rfl rfl (by simp [Value.ofNat])]
  cases Binary64.ofInt64 (.ofNat k) <;> rfl

theorem Value.lists_nil {v : Value} (hv : v.items = .ok []) (hl : v.member "length" = .undefined) : v.Lists [] where
  items_eq := hv
  size := Nat.zero_le _
  below k hk := by
    rw [hl, less_undefined]
    simp
  item k item h := by simp at h

theorem Value.IsListing.lists {v : Value} (h : v.IsListing) : ∃ items, v.Lists items := by
  cases v with
  | undefined | null => exact ⟨[], Value.lists_nil rfl rfl⟩
  | array items =>
    refine ⟨items, rfl, h, fun k hk => ?_, fun k item hk => ?_⟩
    · exact less_ofNat (Nat.le_trans hk h) h
    · have hlt := (List.getElem?_eq_some_iff.1 hk).1
      have hsize : items.length ≤ 2 ^ 53 := h
      simp [Value.index, Value.position?_ofNat (show k < 2 ^ 63 by omega), hk]
  | string s =>
    have hsize : s.toList.length ≤ 2 ^ 53 := by
      rw [String.length_toList]
      exact h
    refine ⟨s.toList.map fun c => .ofChars [c], rfl, by simpa using hsize, fun k hk => ?_, fun k item hk => ?_⟩
    · rw [List.length_map] at hk ⊢
      rw [Value.member, if_pos rfl, ← String.length_toList]
      exact less_ofNat (Nat.le_trans hk hsize) hsize
    · rw [List.getElem?_map, Option.map_eq_some_iff] at hk
      obtain ⟨c, hc, rfl⟩ := hk
      have hlt := (List.getElem?_eq_some_iff.1 hc).1
      simp [Value.index, Value.position?_ofNat (show k < 2 ^ 63 by omega), hc]
  | bool | integer | real | object => exact h.elim

/-! ## The two loops -/

/-- `model.d`. -/
def Expr.modelMember (d : String) : Expr := .member (.name modelName) d

/-- `model.d[i]` for the name `x`; other names stay. -/
def indexing (x i d : String) (y : String) : Expr :=
  if y = x then .index (.modelMember d) (.name i) else .name y

/-- Goes through the items of `model.d`. -/
def eachItem (x d : String) (body : List Segment) : List Segment :=
  [.statement (.each x (.modelMember d) body)]

/-- Goes through the indices of `model.d` and writes `model.d[i]` for `x`. -/
def eachIndex (x i d : String) (body : List Segment) : List Segment :=
  [.statement (.loop (.assign (.name i) (.literal "0"))
    (.binary "<" (.name i) (.member (.modelMember d) "length")) (.expr (.unary "++" (.name i)))
    (Segment.substituteAll (indexing x i d) body))]

section Accepted
variable {x i d : String} {body : List Segment}

theorem modelMember_wellFormed {names : List String} : (Expr.modelMember d).WellFormed names ↔ IsName d := by
  have hm : IsName modelName := isIdentifier_iff.1 (by decide)
  simp [Expr.modelMember, Expr.WellFormed, hm]

theorem indexing_spells (hx : IsName x) (hi : IsName i) (hd : IsName d) : Spells (indexing x i d) := by
  intro names y
  unfold indexing
  split
  · simp [Expr.WellFormed, modelMember_wellFormed, *]
  · rfl

/-- The one template is accepted just when the other is. -/
theorem eachIndex_compiles_iff (hx : IsName x) (hi : IsName i) (hp : Segment.PassiveAll body) :
    (∃ program, (compile (eachIndex x i d body)).result = .ok program) ↔
      ∃ program, (compile (eachItem x d body)).result = .ok program := by
  have hl : IsName "length" := isIdentifier_iff.1 (by decide)
  have hz : ∃ v, Literal.decode "0" = .ok v := ⟨.ofNat 0, rfl⟩
  have hless : ∃ op : BinaryOp, operatorSymbol "<" = op.symbol := ⟨.order .less, rfl⟩
  have hstep : ∃ op : UpdateOp, operatorSymbol "++" = op.symbol := ⟨.increment, rfl⟩
  rw [compiles_iff_wellFormed, compiles_iff_wellFormed]
  simp only [eachIndex, eachItem, Segment.WellFormedAll, Segment.WellFormed, Statement.WellFormed, Statement.grown,
    Segment.grown, Segment.IsCode, Expr.WellFormed, Target.expr, Expr.IsChain, modelMember_wellFormed, hz, hless, hl,
    hi, hx, true_and, and_true]
  refine and_congr_right fun hd => ?_
  rw [Segment.substituteAll_wellFormed (indexing_spells hx hi hd) body [x] [i] hp]
  exact and_iff_right (.inr ⟨hstep, i, rfl, hi, List.mem_singleton_self i⟩)

end Accepted

/-! ### Round by round -/

section Rounds
variable {x i d : String} {body : List Segment} {model : Value} {items : List Value} {options : Options} {rounds : Nat}

/-- The frames of the one loop at the index `k`. -/
def counted (i : String) (k : Nat) : Direct.Frames := [[(i, .ofNat k)], []]

def indexTest (i d : String) : Direct.Exec Bool := do
  return (← (Expr.binary "<" (.name i) (.member (.modelMember d) "length")).runDirect).isTruthy

def indexRound (options : Options) (rounds : Nat) (x i d : String) (body : List Segment) : Direct.Exec Unit := do
  Direct.Exec.tick options.iterationLimit
  Direct.Exec.inFrame [] (Segment.directAll .lexical options rounds (Segment.substituteAll (indexing x i d) body))
  discard (Expr.unary "++" (.name i)).runDirect

def itemRound (options : Options) (rounds : Nat) (x : String) (body : List Segment) (item : Value) :
    Direct.Exec Unit := do
  Direct.Exec.tick options.iterationLimit
  Direct.Exec.inFrame [(x, item)] (Direct.Exec.inFrame [] (Segment.directAll .lexical options rounds body))

theorem value?_replicate (n : Nat) (frames : Direct.Frames) (y : String) :
    Direct.Frames.value? (List.replicate n [] ++ frames) y = Direct.Frames.value? frames y := by
  induction n with
  | zero => rfl
  | succ n ih => exact ih

theorem value?_single (y z : String) (v : Value) :
    Direct.Frames.value? [[(y, v)], []] z = if z = y then some v else none := by
  by_cases h : z = y
  · simp [Direct.Frames.value?, h]
  · have hb : (z == y) = false := by simpa using h
    simp [Direct.Frames.value?, h, List.lookup, hb]

theorem counted_self (i : String) (k : Nat) : Direct.Frames.value? (counted i k) i = some (.ofNat k) := by
  rw [counted, value?_single, if_pos rfl]

theorem counted_of_ne {y : String} (h : y ≠ i) (k : Nat) : Direct.Frames.value? (counted i k) y = none := by
  rw [counted, value?_single, if_neg h]

theorem modelMember_direct {frames : Direct.Frames} (h : Direct.Frames.value? frames modelName = none) :
    (Expr.modelMember d).direct model frames = .ok (model.member d) frames := by
  simp [Expr.modelMember, Expr.direct, Direct.Eval.read, h, modelField, resolveModel?, bind, EStateM.bind, pure,
    EStateM.pure]

/-- Where `x` is the item at the index, every name but `i` reads as the expression for it. -/
theorem indexing_reads (hm : i ≠ modelName) {k : Nat} {item : Value} (hk : (model.member d).index (.ofNat k) = item)
    {y : String} (hy : y ≠ i) : ReadsInside model (indexing x i d) (counted i k) [[(x, item)], []] y := by
  intro n
  have hmodel := (value?_replicate n (counted i k) modelName).trans (counted_of_ne hm.symm k)
  rw [ReadsAs, value?_replicate, value?_single]
  unfold indexing
  by_cases hx : y = x
  · simp [hx, Expr.direct, Direct.Eval.read, modelMember_direct hmodel, value?_replicate, counted_self, hk, bind,
      EStateM.bind, pure, EStateM.pure]
  · simp [hx, Expr.direct, Direct.Eval.read, value?_replicate, counted_of_ne hy]

theorem indexTest_eq (hm : i ≠ modelName) (hl : (model.member d).Lists items) {k : Nat} (hk : k ≤ items.length)
    {s : Direct.State} (hf : s.frames = counted i k) (hs : s.model = model) :
    indexTest i d s = .ok (decide (k < items.length)) s := by
  have hmodel := counted_of_ne hm.symm k
  have hless : BinaryOp.ofSymbol? (operatorSymbol "<") = some (.order .less) := rfl
  have hcond : (Expr.binary "<" (.name i) (.member (.modelMember d) "length")).direct model (counted i k) =
      .ok (.bool (decide (k < items.length))) (counted i k) := by
    simp [Expr.direct, hless, Direct.Eval.read, counted_self, modelMember_direct hmodel, BinaryOp.isShortCircuit,
      BinaryOp.apply, hl.below k hk, Direct.Eval.ofExcept, bind, EStateM.bind, pure, EStateM.pure]
  subst hs
  rw [← hf] at hcond
  simp [indexTest, Expr.runDirect, Direct.Exec.eval, hcond, Value.isTruthy, bind, EStateM.bind, pure, EStateM.pure]

theorem increment_eq {k : Nat} (hk : k + 1 < 2 ^ 63) {s : Direct.State} (hf : s.frames = counted i k) :
    (discard (Expr.unary "++" (.name i)).runDirect : Direct.Exec Unit) s =
      .ok () { s with frames := counted i (k + 1) } := by
  have hstep : PrefixOp.ofSymbol? (operatorSymbol "++") = some (.update .increment) := rfl
  have hnext : Direct.Frames.rebind i (.ofNat (k + 1)) (counted i k) = counted i (k + 1) := by
    simp [Direct.Frames.rebind, counted, Direct.Frame.rebind]
  have hrun : (Expr.unary "++" (.name i)).direct s.model (counted i k) =
      .ok (.ofNat (k + 1)) (counted i (k + 1)) := by
    simp [Expr.direct, hstep, Direct.Eval.update, counted_self, increment_ofNat hk, hnext]
  rw [← hf] at hrun
  rw [discard_eq_bind]
  simp [Expr.runDirect, Direct.Exec.eval, hrun, bind, EStateM.bind, pure, EStateM.pure]

/-- One round at an index does what the round of its item does, and the counter goes on. -/
theorem round_agrees_item (hm : i ≠ modelName) (hfresh : i ∉ Segment.bareNamesAll body) (hp : Segment.PassiveAll body)
    {k : Nat} {item : Value} (hk : k + 1 < 2 ^ 63) (hitem : (model.member d).index (.ofNat k) = item) :
    AgreesUpTo SameFault (Beside model (counted i k) [[]]) (Beside model (counted i (k + 1)) [[]])
      (indexRound options rounds x i d body) (itemRound options rounds x body item) := by
  have hbody : AgreesUpTo SameFault (Beside model (counted i k) [[(x, item)], []])
      (Beside model (counted i k) [[(x, item)], []])
      (Direct.Exec.inFrame []
        (Segment.directAll .lexical options rounds (Segment.substituteAll (indexing x i d) body)))
      (Direct.Exec.inFrame [] (Segment.directAll .lexical options rounds body)) :=
    inFrame_beside (Segment.substituteAll_agrees body _ _ hp fun y hy =>
      (indexing_reads hm hitem (ne_of_mem_of_not_mem hy hfresh)).push)
  have hpush : ∀ s t, Beside model (counted i k) [[]] s t →
      ∃ t', Direct.Exec.push [(x, item)] t = .ok () t' ∧ Beside model (counted i k) [[(x, item)], []] s t' := by
    rintro s _ ⟨hs, hmod, rfl⟩
    exact ⟨_, rfl, hs, hmod, rfl⟩
  -- the one loop counts on where the other one drops the frame of its item
  have hnext : AgreesUpTo SameFault (Beside model (counted i k) [[(x, item)], []])
      (Beside model (counted i (k + 1)) [[]]) (discard (Expr.unary "++" (.name i)).runDirect) Direct.Exec.pop := by
    rintro s _ ⟨hs, hmod, rfl⟩
    rw [increment_eq hk hs]
    exact ⟨rfl, rfl, hmod, rfl⟩
  exact .bind (tick_beside _) fun _ => .skip hpush (.bind hbody fun _ => hnext)

/-- From the index `k` on, the one loop does what the other does with the items that are left. -/
theorem rounds_agree_items (hm : i ≠ modelName) (hfresh : i ∉ Segment.bareNamesAll body)
    (hp : Segment.PassiveAll body) (hl : (model.member d).Lists items) (rest : List Value) {k count : Nat}
    (hk : k ≤ items.length) (hrest : items.drop k = rest) (hcount : rest.length < count) :
    AgreesUpTo SameFault (Beside model (counted i k) [[]]) (Beside model (counted i items.length) [[]])
      (Direct.Exec.loop (indexTest i d) (indexRound options rounds x i d body) count)
      (rest.forM (itemRound options rounds x body)) := by
  -- by induction on the items left; the counter is the position of the first of them
  obtain ⟨count, rfl⟩ : ∃ n, count = n + 1 := ⟨count - 1, by omega⟩
  induction rest generalizing k count with
  | nil =>
    obtain rfl : k = items.length := Nat.le_antisymm hk (List.drop_eq_nil_iff.1 hrest)
    intro s t h
    rw [Direct.Exec.loop, bind_of_ok (indexTest_eq hm hl hk h.1 h.2.1), decide_eq_false (Nat.lt_irrefl _)]
    exact ⟨rfl, h⟩
  | cons item rest ih =>
    have hitem : items[k]? = some item := by
      have hzero : (items.drop k)[0]? = items[k + 0]? := List.getElem?_drop
      simpa [hrest] using hzero.symm
    have hlt : k < items.length := (List.getElem?_eq_some_iff.1 hitem).1
    have hsize := hl.size
    have hdrop : items.drop (k + 1) = rest := by
      rw [← List.tail_drop, hrest, List.tail_cons]
    rw [List.length_cons] at hcount
    obtain ⟨more, rfl⟩ : ∃ n, count = n + 1 := ⟨count - 1, by omega⟩
    have hround : AgreesUpTo SameFault (Beside model (counted i k) [[]]) (Beside model (counted i (k + 1)) [[]])
        (indexRound options rounds x i d body) (itemRound options rounds x body item) :=
      round_agrees_item hm hfresh hp (by omega) (hl.item k item hitem)
    intro s t h
    rw [Direct.Exec.loop, bind_of_ok (indexTest_eq hm hl hk h.1 h.2.1), decide_eq_true hlt]
    exact AgreesUpTo.bind hround (fun _ => ih hlt hdrop more (by omega)) s t h

/-! ### Whole templates -/

theorem eachItem_directAll (hl : (model.member d).Lists items) {s : Direct.State} (hf : s.frames = [[]])
    (hs : s.model = model) :
    Segment.directAll .lexical options rounds (eachItem x d body) s =
      (items.forM (itemRound options rounds x body)) s := by
  have hc : (Expr.modelMember d).runDirect s = .ok (model.member d) s := by
    have hmodel : Direct.Frames.value? s.frames modelName = none := by
      rw [hf]
      rfl
    subst hs
    simp [Expr.runDirect, Direct.Exec.eval, modelMember_direct hmodel]
  have hitems : (Direct.Exec.ofExcept (model.member d).items) s = .ok items s := by
    rw [hl.items_eq]
    rfl
  rw [eachItem, Segment.directAll, Segment.directAll, bind_pure_unit, Segment.direct, Statement.direct, bind_of_ok hc,
    bind_of_ok hitems]
  rfl

theorem eachIndex_directAll {s : Direct.State} (hf : s.frames = [[]]) :
    Segment.directAll .lexical options rounds (eachIndex x i d body) s =
      (Direct.Exec.loop (indexTest i d) (indexRound options rounds x i d body) rounds >>= fun _ => Direct.Exec.pop)
        { s with frames := counted i 0 } := by
  rw [eachIndex, Segment.directAll, Segment.directAll, bind_pure_unit, Segment.direct, Statement.direct]
  obtain ⟨frames, model, output, iterations⟩ := s
  subst hf
  have hpush : Direct.Exec.push [] ⟨[[]], model, output, iterations⟩ =
      .ok () ⟨[[], []], model, output, iterations⟩ := rfl
  have hinit : (Statement.assign (.name i) (.literal "0")).direct .lexical options rounds true
      ⟨[[], []], model, output, iterations⟩ = .ok () ⟨counted i 0, model, output, iterations⟩ := rfl
  rw [Direct.Exec.inFrame, bind_of_ok hpush, bind_assoc, bind_of_ok hinit]
  rfl

theorem eachIndex_agrees (hm : i ≠ modelName) (hfresh : i ∉ Segment.bareNamesAll body)
    (hp : Segment.PassiveAll body) (hl : (model.member d).Lists items) (hrounds : items.length < rounds) :
    AgreesUpTo SameFault (Beside model [[]] [[]]) (Beside model [[]] [[]])
      (Segment.directAll .lexical options rounds (eachIndex x i d body))
      (Segment.directAll .lexical options rounds (eachItem x d body)) := by
  rintro s _ ⟨hf, rfl, rfl⟩
  rw [eachIndex_directAll hf, eachItem_directAll (s := { s with frames := [[]] }) hl rfl rfl]
  have hrun : AgreesUpTo SameFault (Beside s.model (counted i 0) [[]]) (Beside s.model (counted i items.length) [[]])
      (Direct.Exec.loop (indexTest i d) (indexRound options rounds x i d body) rounds)
      (items.forM (itemRound options rounds x body)) :=
    rounds_agree_items hm hfresh hp hl items (Nat.zero_le _) rfl hrounds
  -- the counter starts at zero in a frame of its own, which is dropped at the end
  have hstart : Beside s.model (counted i 0) [[]] { s with frames := counted i 0 } { s with frames := [[]] } :=
    ⟨rfl, rfl, rfl⟩
  rcases hrun.ends hstart with ⟨_, s', _, hx, hy, hs', hmod, rfl⟩ | ⟨_, _, _, _, hx, hy, he⟩
  · have hpop : Direct.Exec.pop s' = .ok () { s' with frames := [[]] } := by
      rw [show s' = { s' with frames := counted i items.length } by rw [← hs']]
      rfl
    rw [bind_of_ok hx, hpop, hy]
    exact ⟨rfl, rfl, hmod, rfl⟩
  · rw [bind_of_error hx, hy]
    exact he

end Rounds

/-- A text, or a fault of the render. -/
def IsOutcome (result : Except Halt String) : Prop :=
  (∃ text, result = .ok text) ∨ ∃ fault, result = .error (.fault fault)

theorem IsOutcome.ne_exhausted {result : Except Halt String} (h : IsOutcome result) : result ≠ .error .exhausted := by
  rintro rfl
  simp [IsOutcome] at h

theorem renderDirect_of_agrees {rule : Direct.LoopRule} {options : Options} {rounds : Nat} {model : Value}
    {l l' : List Segment}
    (h : AgreesUpTo SameFault (Beside model [[]] [[]]) (Beside model [[]] [[]])
      (Segment.directAll rule options rounds l) (Segment.directAll rule options rounds l')) :
    IsOutcome (renderDirect rule l options rounds model) ∧
      renderDirect rule l' options rounds model = renderDirect rule l options rounds model := by
  have hrun := inFrame_beside h
  have hstart : Beside model [] [] ⟨[], model, "", 0⟩ ⟨[], model, "", 0⟩ := ⟨rfl, rfl, rfl⟩
  unfold renderDirect
  rcases hrun.ends hstart with ⟨_, s, _, hx, hy, -, -, rfl⟩ | ⟨_, _, _, _, hx, hy, fault, rfl, rfl⟩
  · simp [hx, hy, IsOutcome]
  · simp [hx, hy, IsOutcome]

/--
A loop that counts through the indices of a collection of the model is accepted just when the loop through its items
is, and renders the same text or fails with the same fault, with and without an iteration limit.
-/
theorem eachIndex_renders_eachItem {x i d : String} {body : List Segment} (hx : isIdentifier x) (hi : isIdentifier i)
    (hm : i ≠ modelName) (hfresh : i ∉ Segment.bareNamesAll body) (hp : Segment.PassiveAll body) :
    ((∃ q, (compile (eachIndex x i d body)).result = .ok q) ↔ ∃ p, (compile (eachItem x d body)).result = .ok p) ∧
      ∀ p q, (compile (eachItem x d body)).result = .ok p → (compile (eachIndex x i d body)).result = .ok q →
        ∀ model : Value, (model.member d).IsListing → ∀ options, ∃ result, IsOutcome result ∧
          p.Renders options model result ∧ q.Renders options model result := by
  refine ⟨eachIndex_compiles_iff (isIdentifier_iff.1 hx) (isIdentifier_iff.1 hi) hp, ?_⟩
  intro p q hpc hqc model hlist options
  obtain ⟨items, hl⟩ := hlist.lists
  -- one round more than there are items, for the test that ends the loop
  have hagree : AgreesUpTo SameFault (Beside model [[]] [[]]) (Beside model [[]] [[]])
      (Segment.directAll .lexical options (items.length + 1) (eachIndex x i d body))
      (Segment.directAll .lexical options (items.length + 1) (eachItem x d body)) :=
    eachIndex_agrees hm hfresh hp hl (Nat.lt_succ_self _)
  obtain ⟨hout, heq⟩ := renderDirect_of_agrees hagree
  rw [← renderDirect_eq hqc (by simp), ← renderDirect_eq hpc (by simp)] at heq
  rw [← renderDirect_eq hqc (by simp)] at hout
  exact ⟨_, hout, Program.renders_iff.2 ⟨hout.ne_exhausted, _, heq⟩,
    Program.renders_iff.2 ⟨hout.ne_exhausted, _, rfl⟩⟩

/-- A list item with a title, a block and a choice that read the item and the model. -/
def listItem : List Segment := [
  .element "li" [.valued "title" [.expr (.name "item")]] " " false [
    .block [.text "- ", .expr (.conditional (.name "item") (.name "item") (.literal "'none'"))],
    .statement (.choose (.binary "==" (.name "item") (.member (.name "model") "best"))
      [.text "!"] [.expr (.call (.name "item") "indexOf" [.name "best"])])]]

def bestOfNames : Value :=
  .object [("best", .string "b"), ("names", .array [.string "b", .string "ab", .string ""])]

theorem eachIndex_renders_eachItem_listItem : ∃ p q,
    (compile (eachItem "item" "names" listItem)).result = .ok p ∧
      (compile (eachIndex "item" "n" "names" listItem)).result = .ok q ∧
      ∃ result, IsOutcome result ∧ p.Renders ⟨"", some 3⟩ bestOfNames result ∧
        q.Renders ⟨"", some 3⟩ bestOfNames result := by
  have hx : isIdentifier "item" := by decide
  have hi : isIdentifier "n" := by decide
  have hfresh : "n" ∉ Segment.bareNamesAll listItem := by decide
  have hp : Segment.PassiveAll listItem := by
    simp [listItem, Segment.PassiveAll, Segment.Passive, Attribute.PassiveAll, Attribute.Passive, Statement.Passive,
      Expr.Passive, Expr.PassiveArgs]
  obtain ⟨hiff, hsame⟩ := eachIndex_renders_eachItem (d := "names") hx hi (by decide) hfresh hp
  obtain ⟨p, hpc⟩ : ∃ p, (compile (eachItem "item" "names" listItem)).result = .ok p := ⟨_, rfl⟩
  obtain ⟨q, hqc⟩ := hiff.2 ⟨p, hpc⟩
  have hlist : (bestOfNames.member "names").IsListing := by
    simp [bestOfNames, Value.member, Fields.get?, Value.IsListing]
  exact ⟨p, q, hpc, hqc, hsame p q hpc hqc _ hlist _⟩

end Stencil
