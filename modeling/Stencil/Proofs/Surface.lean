import Mathlib
import Stencil.Proofs.Acceptance
import Stencil.Proofs.Literals
import Stencil.Proofs.Phrases
/-!
# The surface of expressions

The surface text has parentheses around operands with two or three operands of their own, but none around signs. It
shows the phrase of an expression (`Expr.text_phrase`) and no more: a sign before a chain of members, and two signs in
a row, can be read in two ways. `SpelledAlike` has just these laws, and `surface_eq_iff` says that two expressions have
one surface only by them.
-/

namespace Stencil

/-! ## Expressions by their tokens -/

/-- Whole numbers, and string literals in double quotes without white space around them. -/
def PlainLiteral (token : String) : Prop :=
  (token.toList ≠ [] ∧ ∀ c ∈ token.toList, c.isDigit) ∨
    token.toList.head? = some '"' ∧ Text.trim token.toList = token.toList ∧ ∃ v, Literal.decode token = .ok v

mutual

/-- Names are identifiers, operators are symbols, and literals are plain. -/
def Expr.Printable : Expr → Prop
  | .literal token => PlainLiteral token
  | .name x => isIdentifier x
  | .member target x => isIdentifier x ∧ target.Printable
  | .index target position => target.Printable ∧ position.Printable
  | .call target method args => isIdentifier method ∧ target.Printable ∧ Expr.PrintableArgs args
  | .unary operator operand => (PrefixOp.ofSymbol? operator).isSome ∧ operand.Printable
  | .binary operator left right => (BinaryOp.ofSymbol? operator).isSome ∧ left.Printable ∧ right.Printable
  | .conditional condition ifTrue ifFalse => condition.Printable ∧ ifTrue.Printable ∧ ifFalse.Printable

def Expr.PrintableArgs : List Expr → Prop
  | [] => True
  | e :: rest => e.Printable ∧ Expr.PrintableArgs rest

end

theorem Literal.HexDigit.plain {c : Char} {v : Nat} (h : HexDigit c v) : c ≠ '"' ∧ c ≠ '\\' := by
  constructor
  · rintro rfl
    have hnone : hexDigit? '"' = none := by decide
    rw [hexDigit?_eq_some_iff.2 h] at hnone
    cases hnone
  · rintro rfl
    have hnone : hexDigit? '\\' = none := by decide
    rw [hexDigit?_eq_some_iff.2 h] at hnone
    cases hnone

theorem Literal.HexDigit.escaped {c : Char} {v : Nat} {cs : List Char} (h : HexDigit c v) (hcs : Escaped cs) :
    Escaped (c :: cs) :=
  .plain h.plain.1 h.plain.2 hcs

theorem Literal.DenotesLoosely.escaped {text : List Char} {c : Char} (h : DenotesLoosely '"' text c) :
    Escaped text := by
  rcases h with h | h
  · cases h with
    | plain hq hb => exact .plain hq hb .nil
    | letter => exact .escape .nil
    | code ha hb hc hd => exact .escape (ha.escaped (hb.escaped (hc.escaped (hd.escaped .nil))))
  · cases h with
    | mk hb hc hd => exact .escape (.plain (by decide) (by decide) (hb.escaped (hc.escaped (hd.escaped .nil))))

theorem Literal.Reads.escaped {cs s : List Char} (h : Reads (DenotesLoosely '"') cs s) : Escaped cs := by
  obtain ⟨items, hitems, rfl, -⟩ := h
  induction items with
  | nil => exact .nil
  | cons i items ih =>
    rw [List.forall_mem_cons] at hitems
    rw [List.flatMap_cons]
    exact hitems.1.escaped.append (ih hitems.2)

theorem PlainLiteral.isToken {token : String} (h : PlainLiteral token) : IsToken token.toList := by
  rcases h with ⟨hne, hdigits⟩ | ⟨hquote, htrim, v, hv⟩
  · exact .word hne fun c hc => isWordChar_of_isDigit (hdigits c hc)
  · obtain ⟨rest, hrest⟩ := List.head?_eq_some_iff.1 hquote
    rw [Literal.decode_of_quote (.inl rfl) (htrim.trans hrest), Literal.decodeString_eq_ok_iff] at hv
    obtain ⟨s, -, body, hbody, hreads⟩ := hv
    rw [hrest, hbody]
    exact .quoted hreads.escaped

/-! ## The phrase of an expression -/

mutual

def Expr.phrase : (e : Expr) → e.Printable → Phrase
  | .literal token, h => .operand (.ofToken ⟨token.toList, h.isToken⟩)
  | .name x, h => .operand (.ofToken ⟨x.toList, isToken_of_isIdentifier h⟩)
  | .member target x, h => .operand ((target.phrase h.2).asOperand.linked (.member ⟨x, h.1⟩))
  | .index target position, h =>
    .operand ((target.phrase h.1).asOperand.linked (.index (position.phrase h.2)))
  | .call target method args, h =>
    .operand ((target.phrase h.2.1).asOperand.linked (.call ⟨method, h.1⟩ (Expr.phrases args h.2.2)))
  | .unary operator operand, h =>
    .operand ((operand.phrase h.2).asOperand.signed ((PrefixOp.ofSymbol? operator).get h.1).signs)
  | .binary operator left right, h =>
    .binary ((BinaryOp.ofSymbol? operator).get h.1) (left.phrase h.2.1).asOperand (right.phrase h.2.2).asOperand
  | .conditional condition ifTrue ifFalse, h =>
    .conditional (condition.phrase h.1).asOperand (ifTrue.phrase h.2.1).asOperand (ifFalse.phrase h.2.2).asOperand

def Expr.phrases : (args : List Expr) → Expr.PrintableArgs args → List Phrase
  | [], _ => []
  | e :: rest, h => e.phrase h.1 :: Expr.phrases rest h.2

end

theorem PrefixOp.symbol_get {operator : String} (h : (PrefixOp.ofSymbol? operator).isSome) :
    ((PrefixOp.ofSymbol? operator).get h).symbol = operator :=
  (PrefixOp.ofSymbol?_eq_some.1 (Option.some_get h).symm).symm

theorem BinaryOp.symbol_get {operator : String} (h : (BinaryOp.ofSymbol? operator).isSome) :
    ((BinaryOp.ofSymbol? operator).get h).symbol = operator :=
  (BinaryOp.ofSymbol?_eq_some.1 (Option.some_get h).symm).symm

theorem Expr.isCompound_phrase (e : Expr) (h : e.Printable) : (e.phrase h).isCompound = e.isCompound := by
  cases e <;> rfl

theorem Expr.text_operand {e : Expr} {h : e.Printable} (ht : (e.phrase h).text = e.surface.toList) :
    (e.phrase h).asOperand.text = (parenthesise e.isCompound e.surface).toList := by
  rw [← e.isCompound_phrase h]
  exact Phrase.text_asOperand ht

mutual

/-- The surface of an expression is the text of its phrase. -/
theorem Expr.text_phrase : ∀ (e : Expr) (h : e.Printable), (e.phrase h).text = e.surface.toList
  | .literal _, _ | .name _, _ => by simp [Expr.phrase, Phrase.text, Expr.surface]
  | .member target x, h => by
    simp [Expr.phrase, Phrase.text, Expr.surface, Link.text, Expr.text_operand (Expr.text_phrase target h.2)]
  | .index target position, h => by
    simp [Expr.phrase, Phrase.text, Expr.surface, Link.text, Expr.text_operand (Expr.text_phrase target h.1),
      Expr.text_phrase position h.2]
  | .call target method args, h => by
    simp [Expr.phrase, Phrase.text, Expr.surface, Link.text, Expr.text_operand (Expr.text_phrase target h.2.1),
      Phrase.textArgs_toList (Expr.texts_phrases args h.2.2)]
  | .unary operator operand, h => by
    simp [Expr.phrase, Phrase.text, Expr.surface, Expr.text_operand (Expr.text_phrase operand h.2),
      PrefixOp.map_signs, PrefixOp.symbol_get]
  | .binary operator left right, h => by
    simp [Expr.phrase, Phrase.text, Expr.surface, Expr.text_operand (Expr.text_phrase left h.2.1),
      Expr.text_operand (Expr.text_phrase right h.2.2), BinaryOp.symbol_get]
  | .conditional condition ifTrue ifFalse, h => by
    simp [Expr.phrase, Phrase.text, Expr.surface, Expr.text_operand (Expr.text_phrase condition h.1),
      Expr.text_operand (Expr.text_phrase ifTrue h.2.1), Expr.text_operand (Expr.text_phrase ifFalse h.2.2)]

theorem Expr.texts_phrases : ∀ (args : List Expr) (h : Expr.PrintableArgs args),
    (Expr.phrases args h).map Phrase.text = (Expr.surfaceArgs args).map String.toList
  | [], _ => rfl
  | e :: rest, h => by simp [Expr.phrases, Expr.surfaceArgs, Expr.text_phrase e h.1, Expr.texts_phrases rest h.2]

end

/-! ## Reading a phrase -/

/-- Numbers start with a digit and texts with a quote; what is left are names. -/
def Token.expr (t : Token) : Expr :=
  if ∀ c ∈ t.1.head?, c.isDigit ∨ c = '"' then .literal (.ofList t.1) else .name (.ofList t.1)

/-- The operators that signs are read as: two equal signs, other than `!`, are one operator. -/
def Sign.operators : List Sign → List String
  | .plus :: .plus :: rest => "++" :: Sign.operators rest
  | .minus :: .minus :: rest => "--" :: Sign.operators rest
  | .plus :: rest => "+" :: Sign.operators rest
  | .minus :: rest => "-" :: Sign.operators rest
  | .not :: rest => "!" :: Sign.operators rest
  | [] => []

mutual

/-- The expression that a phrase is read as, with signs outside of links. -/
def Phrase.expr : Phrase → Expr
  | .operand o => o.expr
  | .binary op left right => .binary op.symbol left.expr right.expr
  | .conditional condition ifTrue ifFalse => .conditional condition.expr ifTrue.expr ifFalse.expr

def Operand.expr : Operand → Expr
  | .mk signs head links => (Sign.operators signs).foldr .unary (Link.exprs links head.expr)

def Head.expr : Head → Expr
  | .token t => t.expr
  | .nested p => p.expr

def Link.expr : Link → Expr → Expr
  | .member x, e => .member e x.1
  | .index p, e => .index e p.expr
  | .call method args, e => .call e method.1 (Phrase.exprs args)

def Link.exprs : List Link → Expr → Expr
  | [], e => e
  | link :: rest, e => Link.exprs rest (link.expr e)

def Phrase.exprs : List Phrase → List Expr
  | [] => []
  | p :: rest => p.expr :: Phrase.exprs rest

end

theorem Operand.expr_ofToken (t : Token) : (Operand.ofToken t).expr = t.expr := by
  rw [Operand.ofToken, Operand.expr, Sign.operators, List.foldr_nil, Link.exprs, Head.expr]

theorem Phrase.expr_asOperand (p : Phrase) : p.asOperand.expr = p.expr := by
  cases p <;> rfl

theorem Link.exprs_concat (links : List Link) (link : Link) (e : Expr) :
    Link.exprs (links ++ [link]) e = link.expr (Link.exprs links e) := by
  induction links generalizing e with
  | nil => rfl
  | cons first links ih => exact ih _

theorem Token.expr_literal {token : String} (h : PlainLiteral token) :
    Token.expr ⟨token.toList, h.isToken⟩ = .literal token := by
  have hstart : ∀ c ∈ token.toList.head?, c.isDigit ∨ c = '"' := by
    rcases h with ⟨-, hdigits⟩ | ⟨hquote, -⟩
    · exact fun c hc => .inl (hdigits c (List.mem_of_mem_head? hc))
    · intro c hc
      rw [hquote] at hc
      exact .inr (Option.some.inj hc).symm
  rw [Token.expr, if_pos hstart, String.ofList_toList]

theorem Token.expr_name {x : String} (h : isIdentifier x) :
    Token.expr ⟨x.toList, isToken_of_isIdentifier h⟩ = .name x := by
  obtain ⟨c, cs, hc, hdigit⟩ := Name.head ⟨x, h⟩
  have hword := Name.word ⟨x, h⟩ c (by simp [hc])
  have hstart : ¬∀ c ∈ x.toList.head?, c.isDigit ∨ c = '"' := by
    intro hall
    rcases hall c (by simp [hc]) with hd | rfl
    · exact hdigit hd
    · revert hword
      decide
  rw [Token.expr, if_neg hstart, String.ofList_toList]

/-! ## Expressions that are spelled alike -/

/--
The laws of spelling: a sign before a chain of members stands before the whole chain or before its start, and two
equal signs are one operator or two.
-/
inductive SpelledAlike : Expr → Expr → Prop
  | refl (e) : SpelledAlike e e
  | symm {e f} : SpelledAlike e f → SpelledAlike f e
  | trans {e f g} : SpelledAlike e f → SpelledAlike f g → SpelledAlike e g
  | memberSign (operator e x) : SpelledAlike (.member (.unary operator e) x) (.unary operator (.member e x))
  | indexSign (operator e i) : SpelledAlike (.index (.unary operator e) i) (.unary operator (.index e i))
  | callSign (operator e m args) : SpelledAlike (.call (.unary operator e) m args) (.unary operator (.call e m args))
  | plusPlus (e) : SpelledAlike (.unary "+" (.unary "+" e)) (.unary "++" e)
  | minusMinus (e) : SpelledAlike (.unary "-" (.unary "-" e)) (.unary "--" e)
  | member {e e' x} : SpelledAlike e e' → SpelledAlike (.member e x) (.member e' x)
  | index {e e' i i'} : SpelledAlike e e' → SpelledAlike i i' → SpelledAlike (.index e i) (.index e' i')
  | call {e e' m args} : SpelledAlike e e' → SpelledAlike (.call e m args) (.call e' m args)
  | argument {e m before a a' after} : SpelledAlike a a' →
      SpelledAlike (.call e m (before ++ a :: after)) (.call e m (before ++ a' :: after))
  | unary {operator e e'} : SpelledAlike e e' → SpelledAlike (.unary operator e) (.unary operator e')
  | binary {operator l l' r r'} : SpelledAlike l l' → SpelledAlike r r' →
      SpelledAlike (.binary operator l r) (.binary operator l' r')
  | conditional {c c' a a' b b'} : SpelledAlike c c' → SpelledAlike a a' → SpelledAlike b b' →
      SpelledAlike (.conditional c a b) (.conditional c' a' b')

theorem surfaceArgs_append (a b : List Expr) :
    Expr.surfaceArgs (a ++ b) = Expr.surfaceArgs a ++ Expr.surfaceArgs b := by
  induction a with
  | nil => rfl
  | cons e a ih => simp [Expr.surfaceArgs, ih]

/-- The laws keep the surface, and whether it is put in parentheses. -/
theorem SpelledAlike.surface {e f : Expr} (h : SpelledAlike e f) :
    e.isCompound = f.isCompound ∧ e.surface = f.surface := by
  induction h with
  | refl => exact ⟨rfl, rfl⟩
  | symm _ ih => exact ⟨ih.1.symm, ih.2.symm⟩
  | trans _ _ ih₁ ih₂ => exact ⟨ih₁.1.trans ih₂.1, ih₁.2.trans ih₂.2⟩
  | memberSign | indexSign | callSign =>
    exact ⟨rfl, by simp [Expr.surface, Expr.isCompound, parenthesise, String.append_assoc]⟩
  | plusPlus | minusMinus =>
    refine ⟨rfl, ?_⟩
    simp only [Expr.surface, Expr.isCompound, parenthesise, Bool.false_eq_true, if_false]
    rw [← String.append_assoc]
    rfl
  | member _ ih | call _ ih | unary _ ih => exact ⟨rfl, by simp only [Expr.surface, ih.1, ih.2]⟩
  | index _ _ ih₁ ih₂ | binary _ _ ih₁ ih₂ =>
    exact ⟨rfl, by simp only [Expr.surface, ih₁.1, ih₁.2, ih₂.1, ih₂.2]⟩
  | argument _ ih => exact ⟨rfl, by simp only [Expr.surface, surfaceArgs_append, Expr.surfaceArgs, ih.2]⟩
  | conditional _ _ _ ih₁ ih₂ ih₃ =>
    exact ⟨rfl, by simp only [Expr.surface, ih₁.1, ih₁.2, ih₂.1, ih₂.2, ih₃.1, ih₃.2]⟩

/-- All arguments may change at once. -/
theorem SpelledAlike.arguments {args args' : List Expr} (h : List.Forall₂ SpelledAlike args args') (e : Expr)
    (m : String) (before : List Expr) :
    SpelledAlike (.call e m (before ++ args)) (.call e m (before ++ args')) := by
  induction h generalizing before with
  | nil => exact .refl _
  | @cons a a' args args' ha _ ih =>
    have hrest := ih (before ++ [a'])
    rw [List.append_assoc, List.append_assoc] at hrest
    exact .trans (.argument ha) hrest

theorem SpelledAlike.link (link : Link) {e e' : Expr} (h : SpelledAlike e e') :
    SpelledAlike (link.expr e) (link.expr e') := by
  cases link with
  | member x => exact .member h
  | index p => exact .index h (.refl _)
  | call m args => exact .call h

theorem SpelledAlike.operators {e e' : Expr} (h : SpelledAlike e e') (operators : List String) :
    SpelledAlike (operators.foldr .unary e) (operators.foldr .unary e') := by
  induction operators with
  | nil => exact h
  | cons operator operators ih => exact .unary ih

/-- A link may move out of a row of signs. -/
theorem SpelledAlike.link_operators (link : Link) (operators : List String) (e : Expr) :
    SpelledAlike (link.expr (operators.foldr .unary e)) (operators.foldr .unary (link.expr e)) := by
  induction operators with
  | nil => exact .refl _
  | cons operator operators ih =>
    have hswap (e : Expr) : SpelledAlike (link.expr (.unary operator e)) (.unary operator (link.expr e)) := by
      cases link with
      | member x => exact .memberSign operator e x.1
      | index p => exact .indexSign operator e p.expr
      | call m args => exact .callSign operator e m.1 (Phrase.exprs args)
    exact .trans (hswap _) (.unary ih)

theorem SpelledAlike.linked (link : Link) (o : Operand) : SpelledAlike (link.expr o.expr) (o.linked link).expr := by
  obtain ⟨signs, head, links⟩ := o
  simp only [Operand.linked, Operand.expr, Link.exprs_concat]
  exact .link_operators link _ _

/-- Each sign as an operator of its own. -/
def Sign.single (sign : Sign) : String := .singleton sign.char

theorem SpelledAlike.singles (signs : List Sign) (e : Expr) :
    SpelledAlike ((Sign.operators signs).foldr .unary e) ((signs.map Sign.single).foldr .unary e) := by
  fun_induction Sign.operators signs with
  | case1 rest ih => exact .trans (.symm (.plusPlus _)) (.unary (.unary ih))
  | case2 rest ih => exact .trans (.symm (.minusMinus _)) (.unary (.unary ih))
  | case3 rest _ ih | case4 rest _ ih | case5 rest ih => exact .unary ih
  | case6 => exact .refl _

theorem SpelledAlike.single_signs (op : PrefixOp) (e : Expr) :
    SpelledAlike (.unary op.symbol e) ((op.signs.map Sign.single).foldr .unary e) := by
  rcases op with op | op
  · cases op <;> exact .refl _
  · cases op with
    | increment => exact .symm (.plusPlus e)
    | decrement => exact .symm (.minusMinus e)

theorem SpelledAlike.signed (op : PrefixOp) (o : Operand) :
    SpelledAlike (.unary op.symbol o.expr) (o.signed op.signs).expr := by
  obtain ⟨signs, head, links⟩ := o
  refine .trans (.unary (.singles signs _)) ?_
  refine .trans (.single_signs op _) ?_
  rw [← List.foldr_append, ← List.map_append]
  exact .symm (.singles _ _)

mutual

/-- An expression is spelled like the one that its phrase is read as. -/
theorem Expr.spelledAlike_phrase : ∀ (e : Expr) (h : e.Printable), SpelledAlike e (e.phrase h).expr
  | .literal token, h => by
    rw [Expr.phrase, Phrase.expr, Operand.expr_ofToken, Token.expr_literal h]
    exact .refl _
  | .name x, h => by
    rw [Expr.phrase, Phrase.expr, Operand.expr_ofToken, Token.expr_name h]
    exact .refl _
  | .member target x, h => by
    have htarget := Expr.spelledAlike_phrase target h.2
    rw [← Phrase.expr_asOperand] at htarget
    exact .trans (.member htarget) (.linked (.member ⟨x, h.1⟩) _)
  | .index target position, h => by
    have htarget := Expr.spelledAlike_phrase target h.1
    rw [← Phrase.expr_asOperand] at htarget
    exact .trans (.index htarget (Expr.spelledAlike_phrase position h.2)) (.linked (.index (position.phrase h.2)) _)
  | .call target method args, h => by
    have htarget := Expr.spelledAlike_phrase target h.2.1
    rw [← Phrase.expr_asOperand] at htarget
    refine .trans (.call htarget) (.trans (.arguments (Expr.spelledAlike_phrases args h.2.2) _ _ []) ?_)
    exact .linked (.call ⟨method, h.1⟩ (Expr.phrases args h.2.2)) _
  | .unary operator operand, h => by
    have hoperand := Expr.spelledAlike_phrase operand h.2
    rw [← Phrase.expr_asOperand] at hoperand
    have hsigned := SpelledAlike.signed ((PrefixOp.ofSymbol? operator).get h.1) (operand.phrase h.2).asOperand
    rw [PrefixOp.symbol_get] at hsigned
    exact .trans (.unary hoperand) hsigned
  | .binary operator left right, h => by
    have hleft := Expr.spelledAlike_phrase left h.2.1
    have hright := Expr.spelledAlike_phrase right h.2.2
    rw [← Phrase.expr_asOperand] at hleft hright
    rw [Expr.phrase, Phrase.expr, BinaryOp.symbol_get]
    exact .binary hleft hright
  | .conditional condition ifTrue ifFalse, h => by
    have hcondition := Expr.spelledAlike_phrase condition h.1
    have hTrue := Expr.spelledAlike_phrase ifTrue h.2.1
    have hFalse := Expr.spelledAlike_phrase ifFalse h.2.2
    rw [← Phrase.expr_asOperand] at hcondition hTrue hFalse
    exact .conditional hcondition hTrue hFalse

theorem Expr.spelledAlike_phrases : ∀ (args : List Expr) (h : Expr.PrintableArgs args),
    List.Forall₂ SpelledAlike args (Phrase.exprs (Expr.phrases args h))
  | [], _ => .nil
  | e :: rest, h => .cons (Expr.spelledAlike_phrase e h.1) (Expr.spelledAlike_phrases rest h.2)

end

/-! ## Expressions that are read back -/

/-- A sign before one that it would be taken together with. -/
def Expr.Merges (operator : String) : Expr → Prop
  | .unary next _ => (operator, next) ∈ [("+", "+"), ("+", "++"), ("-", "-"), ("-", "--")]
  | _ => False

def Expr.IsUnary : Expr → Prop
  | .unary _ _ => True
  | _ => False

mutual

/-- No sign stands at the start of a chain of members, and no two signs in a row make up another operator. -/
def Expr.Clear : Expr → Prop
  | .literal _ | .name _ => True
  | .member target _ => ¬target.IsUnary ∧ target.Clear
  | .index target position => ¬target.IsUnary ∧ target.Clear ∧ position.Clear
  | .call target _ args => ¬target.IsUnary ∧ target.Clear ∧ Expr.ClearArgs args
  | .unary operator operand => ¬operand.Merges operator ∧ operand.Clear
  | .binary _ left right => left.Clear ∧ right.Clear
  | .conditional condition ifTrue ifFalse => condition.Clear ∧ ifTrue.Clear ∧ ifFalse.Clear

def Expr.ClearArgs : List Expr → Prop
  | [] => True
  | e :: rest => e.Clear ∧ Expr.ClearArgs rest

end

def Operand.signs : Operand → List Sign
  | .mk signs _ _ => signs

@[simp] theorem Operand.signs_linked (link : Link) (o : Operand) : (o.linked link).signs = o.signs := by
  cases o
  rfl

@[simp] theorem Operand.signs_signed (signs : List Sign) (o : Operand) : (o.signed signs).signs = signs ++ o.signs := by
  cases o
  rfl

theorem Operand.expr_linked {o : Operand} (h : o.signs = []) (link : Link) :
    (o.linked link).expr = link.expr o.expr := by
  obtain ⟨signs, head, links⟩ := o
  obtain rfl : signs = [] := h
  simp only [Operand.linked, Operand.expr, Link.exprs_concat, Sign.operators, List.foldr_nil]

/-- The operator is one sign, which the signs start with; `!` does not join with itself. -/
def PrefixOp.Joins (op : PrefixOp) (signs : List Sign) : Prop :=
  ∃ sign, op.signs = [sign] ∧ sign ≠ .not ∧ signs.head? = some sign

/-- The signs of an operator are read as the operator if they do not join with what follows. -/
theorem Sign.operators_signs {op : PrefixOp} {signs : List Sign} (h : ¬op.Joins signs) :
    Sign.operators (op.signs ++ signs) = op.symbol :: Sign.operators signs := by
  rcases op with op | op
  · cases op with
    | not => rfl
    | negate =>
      rcases signs with _ | ⟨_ | _ | _, signs⟩
      case cons.minus => exact absurd ⟨.minus, rfl, by decide, rfl⟩ h
      all_goals rfl
    | plus =>
      rcases signs with _ | ⟨_ | _ | _, signs⟩
      case cons.plus => exact absurd ⟨.plus, rfl, by decide, rfl⟩ h
      all_goals rfl
  · cases op <;> rfl

theorem PrefixOp.Joins.symbols {op next : PrefixOp} {signs : List Sign} (h : op.Joins (next.signs ++ signs)) :
    (op.symbol, next.symbol) ∈ [("+", "+"), ("+", "++"), ("-", "-"), ("-", "--")] := by
  obtain ⟨sign, hop, hne, hhead⟩ := h
  rcases op with op | op <;> rcases next with next | next <;> cases op <;> cases next <;> cases sign <;>
    simp_all [PrefixOp.signs, PrefixOp.symbol, UnaryOp.symbol, UpdateOp.symbol]

/-- Only an operator puts signs in front of what is clear. -/
theorem Expr.signs_eq_nil : ∀ (e : Expr) (h : e.Printable), e.Clear → ¬e.IsUnary → (e.phrase h).asOperand.signs = []
  | .literal _, _, _, _ | .name _, _, _, _ | .binary .., _, _, _ | .conditional .., _, _, _ => rfl
  | .member target _, h, hc, _ => by
    rw [Expr.phrase, Phrase.asOperand, Operand.signs_linked]
    exact Expr.signs_eq_nil target h.2 hc.2 hc.1
  | .index target _, h, hc, _ => by
    rw [Expr.phrase, Phrase.asOperand, Operand.signs_linked]
    exact Expr.signs_eq_nil target h.1 hc.2.1 hc.1
  | .call target _ _, h, hc, _ => by
    rw [Expr.phrase, Phrase.asOperand, Operand.signs_linked]
    exact Expr.signs_eq_nil target h.2.1 hc.2.1 hc.1
  | .unary _ _, _, _, hne => absurd trivial hne

/-- Before what is clear an operator joins no sign, unless it merges. -/
theorem Expr.Clear.not_joins {e : Expr} (hc : e.Clear) (h : e.Printable) {op : PrefixOp} (hm : ¬e.Merges op.symbol) :
    ¬op.Joins (e.phrase h).asOperand.signs := by
  by_cases hu : e.IsUnary
  · cases e with
    | unary operator operand =>
      rw [Expr.phrase, Phrase.asOperand, Operand.signs_signed]
      rw [Expr.Merges, ← PrefixOp.symbol_get h.1] at hm
      exact fun hjoins => hm hjoins.symbols
    | _ => cases hu
  · rw [Expr.signs_eq_nil e h hc hu]
    rintro ⟨sign, -, -, hhead⟩
    cases hhead

theorem Operand.expr_signed {o : Operand} {op : PrefixOp} (h : ¬op.Joins o.signs) :
    (o.signed op.signs).expr = .unary op.symbol o.expr := by
  obtain ⟨signs, head, links⟩ := o
  have hread : Sign.operators (op.signs ++ signs) = op.symbol :: Sign.operators signs := Sign.operators_signs h
  rw [Operand.signed, Operand.expr, hread, List.foldr_cons, Operand.expr]

mutual

/-- What is clear is read back from its phrase. -/
theorem Expr.expr_phrase : ∀ (e : Expr) (h : e.Printable), e.Clear → (e.phrase h).expr = e
  | .literal token, h, _ => by
    rw [Expr.phrase, Phrase.expr, Operand.expr_ofToken, Token.expr_literal h]
  | .name x, h, _ => by
    rw [Expr.phrase, Phrase.expr, Operand.expr_ofToken, Token.expr_name h]
  | .member target x, h, hc => by
    rw [Expr.phrase, Phrase.expr, Operand.expr_linked (Expr.signs_eq_nil target h.2 hc.2 hc.1), Link.expr,
      Phrase.expr_asOperand, Expr.expr_phrase target h.2 hc.2]
  | .index target position, h, hc => by
    rw [Expr.phrase, Phrase.expr, Operand.expr_linked (Expr.signs_eq_nil target h.1 hc.2.1 hc.1), Link.expr,
      Phrase.expr_asOperand, Expr.expr_phrase target h.1 hc.2.1, Expr.expr_phrase position h.2 hc.2.2]
  | .call target method args, h, hc => by
    rw [Expr.phrase, Phrase.expr, Operand.expr_linked (Expr.signs_eq_nil target h.2.1 hc.2.1 hc.1), Link.expr,
      Phrase.expr_asOperand, Expr.expr_phrase target h.2.1 hc.2.1, Expr.exprs_phrases args h.2.2 hc.2.2]
  | .unary operator operand, h, hc => by
    have hm := hc.1
    rw [← PrefixOp.symbol_get h.1] at hm
    rw [Expr.phrase, Phrase.expr, Operand.expr_signed (hc.2.not_joins h.2 hm), Phrase.expr_asOperand,
      Expr.expr_phrase operand h.2 hc.2, PrefixOp.symbol_get]
  | .binary operator left right, h, hc => by
    rw [Expr.phrase, Phrase.expr, Phrase.expr_asOperand, Phrase.expr_asOperand, Expr.expr_phrase left h.2.1 hc.1,
      Expr.expr_phrase right h.2.2 hc.2, BinaryOp.symbol_get]
  | .conditional condition ifTrue ifFalse, h, hc => by
    rw [Expr.phrase, Phrase.expr, Phrase.expr_asOperand, Phrase.expr_asOperand, Phrase.expr_asOperand,
      Expr.expr_phrase condition h.1 hc.1, Expr.expr_phrase ifTrue h.2.1 hc.2.1, Expr.expr_phrase ifFalse h.2.2 hc.2.2]

theorem Expr.exprs_phrases : ∀ (args : List Expr) (h : Expr.PrintableArgs args), Expr.ClearArgs args →
    Phrase.exprs (Expr.phrases args h) = args
  | [], _, _ => rfl
  | e :: rest, h, hc => by
    rw [Expr.phrases, Phrase.exprs, Expr.expr_phrase e h.1 hc.1, Expr.exprs_phrases rest h.2 hc.2]

end

theorem phrase_eq_of_surface_eq {e f : Expr} (he : e.Printable) (hf : f.Printable) (h : e.surface = f.surface) :
    e.phrase he = f.phrase hf := by
  apply Phrase.text_inj
  rw [Expr.text_phrase, Expr.text_phrase, h]

/--
Two expressions have one surface just when they are spelled alike: where one has a sign before a chain of members the
other may have it at the start of the chain, and two equal signs may be one operator. Expressions without such signs are
told apart by their surface.
-/
theorem surface_eq_iff {e f : Expr} (he : e.Printable) (hf : f.Printable) :
    (e.surface = f.surface ↔ SpelledAlike e f) ∧ (e.Clear → f.Clear → e.surface = f.surface → e = f) := by
  refine ⟨⟨fun h => ?_, fun h => h.surface.2⟩, fun hce hcf h => ?_⟩
  · have hread := e.spelledAlike_phrase he
    rw [phrase_eq_of_surface_eq he hf h] at hread
    exact hread.trans (f.spelledAlike_phrase hf).symm
  · calc
      e = (e.phrase he).expr := (e.expr_phrase he hce).symm
      _ = (f.phrase hf).expr := by rw [phrase_eq_of_surface_eq he hf h]
      _ = f := f.expr_phrase hf hcf

/-- A sign before a chain, and a literal with quotes, a bracket and a dot in it. -/
def signedChain : Expr := .unary "-" (.member (.index (.name "x") (.literal "\"\\\"].y\"")) "z")

/-- The same sign at the start of the chain. -/
def signedStart : Expr := .member (.index (.unary "-" (.name "x")) (.literal "\"\\\"].y\"")) "z"

theorem surface_eq_iff_signedChain :
    signedChain.Printable ∧ signedStart.Printable ∧ signedChain.Clear ∧ SpelledAlike signedChain signedStart ∧
      ∀ f : Expr, f.Printable → f.Clear → signedChain.surface = f.surface → signedChain = f := by
  have hliteral : PlainLiteral "\"\\\"].y\"" := .inr ⟨rfl, rfl, .string "\"].y", rfl⟩
  have hchain : signedChain.Printable := ⟨rfl, rfl, rfl, hliteral⟩
  have hstart : signedStart.Printable := ⟨rfl, ⟨rfl, rfl⟩, hliteral⟩
  have hclear : signedChain.Clear := ⟨id, id, ⟨id, trivial, trivial⟩⟩
  exact ⟨hchain, hstart, hclear, (surface_eq_iff hchain hstart).1.1 rfl,
    fun f hf hcf => (surface_eq_iff hchain hf).2 hclear hcf⟩

/-- `(!x).y` and `!(x.y)` are both shown without parentheses. -/
theorem surface_hides_sign :
    (Expr.member (.unary "!" (.name "x")) "y").Printable ∧ (Expr.unary "!" (.member (.name "x") "y")).Printable ∧
      (Expr.member (.unary "!" (.name "x")) "y").surface = (Expr.unary "!" (.member (.name "x") "y")).surface ∧
      Expr.member (.unary "!" (.name "x")) "y" ≠ .unary "!" (.member (.name "x") "y") := by
  refine ⟨⟨rfl, rfl, rfl⟩, ⟨rfl, rfl, rfl⟩, rfl, ?_⟩
  intro h
  cases h

end Stencil
