import Mathlib
import Stencil.Proofs.Causes
import Stencil.Proofs.Constants
import Stencil.Proofs.Phrases
/-!
# What listings show of variables

A listing shows a local variable by its name, a name of the model with a dollar sign in front, and constants as
literals. Terms with one listing have one phrase, so their leaves have the same words one by one
(`listing_leaves_alike`). A word tells what kind of leaf it is, unless a local variable has a name with a dollar sign
in front or the name of a constant.
-/

namespace Stencil

/-! ## The words of constants -/

/-- What literals denote. -/
def Value.IsConstant : Value → Prop
  | .array _ | .object _ => False
  | .real x => x.isFinite
  | _ => True

theorem Literal.decodeNumber_isConstant {token : List Char} {v : Value} (h : decodeNumber token = .ok v) :
    v.IsConstant := by
  unfold decodeNumber at h
  dsimp only at h
  split at h
  · cases h
    trivial
  · split at h
    · next x _ =>
      by_cases hx : x.isFinite
      · rw [if_pos hx] at h
        cases h
        exact hx
      · rw [if_neg hx] at h
        cases h
    · cases h

theorem Literal.decode_isConstant {token : String} {v : Value} (h : decode token = .ok v) : v.IsConstant := by
  unfold decode at h
  dsimp only at h
  split_ifs at h
  · cases h
    trivial
  · cases h
    trivial
  · cases h
    trivial
  · cases h
    trivial
  · split at h
    · cases h
    · split_ifs at h
      · obtain ⟨s, rfl, -⟩ := decodeString_eq_ok_iff.1 h
        trivial
      · exact decodeNumber_isConstant h

/-- The minus in front of a listed constant. -/
def Value.signs (v : Value) : List Sign := if v.listing.toList.head? = some '-' then [.minus] else []

/-- A listed constant without the minus in front. -/
def Value.word (v : Value) : List Char :=
  if v.listing.toList.head? = some '-' then v.listing.toList.tail else v.listing.toList

theorem Value.signs_word (v : Value) : v.signs.map Sign.char ++ v.word = v.listing.toList := by
  unfold Value.signs Value.word
  split
  · next h =>
    obtain ⟨rest, hrest⟩ := List.head?_eq_some_iff.1 h
    rw [hrest]
    rfl
  · rfl

/-- Digits, and perhaps a point and more digits. -/
inductive IsUnsigned : List Char → Prop
  | whole {ds} : ds ≠ [] → (∀ c ∈ ds, c.isDigit) → IsUnsigned ds
  | decimal {ds fs} : ds ≠ [] → (∀ c ∈ ds, c.isDigit) → fs ≠ [] → (∀ c ∈ fs, c.isDigit) → IsUnsigned (ds ++ '.' :: fs)

theorem IsUnsigned.head {cs : List Char} (h : IsUnsigned cs) : ∃ c rest, cs = c :: rest ∧ c.isDigit := by
  cases h with
  | whole hne hds | decimal hne hds =>
    obtain ⟨d, ds, rfl⟩ := List.exists_cons_of_ne_nil hne
    exact ⟨d, _, rfl, hds d (by simp)⟩

/-- A number, perhaps with a minus in front. -/
def IsSigned (cs : List Char) : Prop := ∃ ds, IsUnsigned ds ∧ (cs = ds ∨ cs = '-' :: ds)

theorem isDigit_of_mem_toDigits {n : Nat} {c : Char} (h : c ∈ Nat.toDigits 10 n) : c.isDigit :=
  Nat.isDigit_of_mem_toDigits (by decide) (by decide) h

theorem isSigned_integerText (n : Int) : IsSigned (integerText n).toList := by
  have hdigits : IsUnsigned (Nat.toDigits 10 n.natAbs) :=
    .whole Nat.toDigits_ne_nil fun _ hc => isDigit_of_mem_toDigits hc
  rw [integerText, String.toList_ofList]
  split
  · exact ⟨_, hdigits, .inr rfl⟩
  · exact ⟨_, hdigits, .inl rfl⟩

namespace Digits

theorem isDigit_ofUnits {n e : Nat} {c : Char} (h : c ∈ (ofUnits n e).digits) : c.isDigit := by
  simp only [ofUnits, List.mem_reverse] at h
  exact isDigit_of_mem_toDigits (List.mem_reverse.1 (List.dropWhile_subset _ h))

/-- The shortest digits are the digits of a number. -/
theorem shortest_eq (tie : Tie) (units : Nat) : ∃ n e, shortest tie units = ofUnits n e := by
  unfold shortest
  dsimp only
  cases hfound : ((List.range 17).map fun n => lengthOf (units * fineness) - 1 - n).findSome? fun e =>
      (onGrid? tie units (10 ^ e)).map fun n => ofUnits n e with
  | none => exact ⟨_, _, rfl⟩
  | some d =>
    obtain ⟨e, -, he⟩ := List.exists_of_findSome?_eq_some hfound
    obtain ⟨n, -, rfl⟩ := Option.map_eq_some_iff.1 he
    exact ⟨n, e, rfl⟩

theorem whole_ne_nil (d : Digits) : d.whole ≠ [] := by
  unfold whole
  split
  · simp
  · intro hnil
    have hlength := congrArg List.length hnil
    simp only [List.length_append, List.length_take, List.length_replicate, List.length_nil] at hlength
    omega

section Digit
variable {d : Digits} {c : Char}

theorem isDigit_whole (h : ∀ c ∈ d.digits, c.isDigit) (hc : c ∈ d.whole) : c.isDigit := by
  unfold whole at hc
  split at hc
  · rw [List.mem_singleton.1 hc]
    decide
  · rcases List.mem_append.1 hc with hc | hc
    · exact h c (List.mem_of_mem_take hc)
    · rw [List.eq_of_mem_replicate hc]
      decide

theorem isDigit_fraction (h : ∀ c ∈ d.digits, c.isDigit) (hc : c ∈ d.fraction) : c.isDigit := by
  unfold fraction at hc
  split at hc
  · rcases List.mem_append.1 hc with hc | hc
    · rw [List.eq_of_mem_replicate hc]
      decide
    · exact h c hc
  · exact h c (List.mem_of_mem_drop hc)

end Digit

theorem isUnsigned_positional {d : Digits} (h : ∀ c ∈ d.digits, c.isDigit) : IsUnsigned d.positional := by
  unfold positional
  split
  · exact .whole d.whole_ne_nil fun c hc => isDigit_whole h hc
  · next hfraction =>
    exact .decimal d.whole_ne_nil (fun c hc => isDigit_whole h hc) (by simpa using hfraction)
      fun c hc => isDigit_fraction h hc

end Digits

theorem Binary64.isSigned_text {x : Binary64} (h : x.isFinite) : IsSigned x.text.toList := by
  cases x with
  | nan | infinite => cases h
  | finite negative m =>
    rw [Binary64.text]
    split
    · exact isSigned_integerText _
    · obtain ⟨n, e, hshortest⟩ := Digits.shortest_eq .up m.units
      have hdigits : IsUnsigned (Digits.ofUnits n e).positional :=
        Digits.isUnsigned_positional fun c hc => Digits.isDigit_ofUnits hc
      dsimp only
      rw [hshortest, String.toList_ofList]
      cases negative with
      | true => exact ⟨_, hdigits, .inr rfl⟩
      | false => exact ⟨_, hdigits, .inl rfl⟩

theorem IsSigned.word {v : Value} (h : IsSigned v.listing.toList) : IsUnsigned v.word := by
  obtain ⟨ds, hds, heq | heq⟩ := h
  · obtain ⟨c, rest, rfl, hc⟩ := hds.head
    have hne : c ≠ '-' := by
      rintro rfl
      cases hc
    rw [Value.word, heq, if_neg (by simp [hne])]
    exact hds
  · rw [Value.word, heq, if_pos List.head?_cons]
    exact hds

theorem Text.escaped_digitChar {n : Nat} (h : n < 16) : Escaped [n.digitChar] := by
  have hplain : ∀ n < 16, n.digitChar ≠ '"' ∧ n.digitChar ≠ '\\' := by decide
  exact .plain (hplain n h).1 (hplain n h).2 .nil

theorem Text.escaped_toDigits (n : Nat) : Escaped (Nat.toDigits 16 n) := by
  induction n using Nat.strong_induction_on with
  | _ n ih =>
    rw [Nat.toDigits_eq_if (by decide)]
    split
    · next hlt => exact escaped_digitChar hlt
    · exact (ih (n / 16) (by omega)).append (escaped_digitChar (Nat.mod_lt n (by decide)))

theorem Text.escaped_quoteChar (c : Char) : Escaped (quoteChar c) := by
  unfold quoteChar
  split_ifs with h0 ht hr hn hq hb
  · exact .escape .nil
  · exact .escape .nil
  · exact .escape .nil
  · exact .escape .nil
  · exact .escape .nil
  · exact .escape .nil
  · exact .plain hq hb .nil
  · refine .escape (.plain (by decide) (by decide) ((escaped_toDigits c.toNat).append ?_))
    exact .plain (by decide) (by decide) .nil

theorem Text.escaped_flatMap (cs : List Char) : Escaped (cs.flatMap quoteChar) := by
  induction cs with
  | nil => exact .nil
  | cons c cs ih => exact (escaped_quoteChar c).append ih

/-- The names of constants. -/
def keywords : List String := ["undefined", "null", "true", "false"]

/-- The word of a constant is a keyword, a number or a text in quotes. -/
theorem Value.word_cases {v : Value} (h : v.IsConstant) :
    (v.listing ∈ keywords ∧ v.word = v.listing.toList) ∨ IsUnsigned v.word ∨
      ∃ cs, Escaped cs ∧ v.word = '"' :: cs ++ ['"'] := by
  cases v with
  | undefined | null => exact .inl ⟨by decide, rfl⟩
  | bool b => cases b <;> exact .inl ⟨by decide, rfl⟩
  | integer n => exact .inr (.inl (IsSigned.word (isSigned_integerText n.toInt)))
  | real x => exact .inr (.inl (IsSigned.word (Binary64.isSigned_text h)))
  | string s =>
    refine .inr (.inr ⟨_, Text.escaped_flatMap s.toList, ?_⟩)
    rw [Value.word, Value.listing, Text.quote, String.toList_ofList, if_neg (by simp)]
  | array | object => cases h

theorem IsUnsigned.isToken {cs : List Char} (h : IsUnsigned cs) : IsToken cs := by
  cases h with
  | whole hne hds => exact .word hne fun c hc => isWordChar_of_isDigit (hds c hc)
  | decimal hne hds hf hfs => exact .decimal hne (fun c hc => isWordChar_of_isDigit (hds c hc)) hf hfs

theorem isToken_of_mem_keywords {w : String} (h : w ∈ keywords) : IsToken w.toList := by
  have hidentifiers : ∀ w ∈ keywords, isIdentifier w := by decide
  exact isToken_of_isIdentifier (hidentifiers w h)

theorem Value.isToken_word {v : Value} (h : v.IsConstant) : IsToken v.word := by
  rcases Value.word_cases h with ⟨hkeyword, heq⟩ | hnumber | ⟨cs, hcs, heq⟩
  · rw [heq]
    exact isToken_of_mem_keywords hkeyword
  · exact hnumber.isToken
  · rw [heq]
    exact .quoted hcs

/-! ## Terms of compiled programs -/

mutual

/-- Names are identifiers, and constants are those of literals. -/
def Term.Listable : Term → Prop
  | .const v => v.IsConstant
  | .variable x | .update _ x => isIdentifier x.name
  | .model name => isIdentifier name
  | .member target name => isIdentifier name ∧ target.Listable
  | .index target position => target.Listable ∧ position.Listable
  | .call target method args => isIdentifier method ∧ target.Listable ∧ Term.ListableArgs args
  | .unary _ operand => operand.Listable
  | .binary _ left right => left.Listable ∧ right.Listable
  | .conditional condition ifTrue ifFalse => condition.Listable ∧ ifTrue.Listable ∧ ifFalse.Listable

def Term.ListableArgs : List Term → Prop
  | [] => True
  | e :: rest => e.Listable ∧ Term.ListableArgs rest

end

section Listable
variable {scope scope' : Scope}

theorem resolve?_name {x : String} {y : Local} (h : scope.resolve? x = some y) : y.name = x := by
  rw [resolve?_eq_innermost?, innermost?] at h
  simpa using List.find?_some h

mutual

theorem Expr.compile_listable : ∀ (e : Expr) (t : Term), (e.compile scope).result = .ok t → t.Listable
  | .literal _ => by
    intro _ ht
    obtain ⟨v, hv, rfl⟩ := literal_compile_ok.1 ht
    exact Literal.decode_isConstant hv
  | .name x => by
    intro _ ht
    obtain ⟨hx, rfl⟩ := name_compile_ok.1 ht
    unfold Scope.term
    split
    · next y hy =>
      rw [Term.Listable, resolve?_name hy]
      exact hx
    · exact hx
  | .member target _ => by
    intro _ ht
    obtain ⟨hx, e, he, rfl⟩ := member_compile_ok.1 ht
    exact ⟨hx, Expr.compile_listable target e he⟩
  | .index target position => by
    intro _ ht
    obtain ⟨e, i, he, hi, rfl⟩ := index_compile_ok.1 ht
    exact ⟨Expr.compile_listable target e he, Expr.compile_listable position i hi⟩
  | .call target _ args => by
    intro _ ht
    obtain ⟨hm, e, es, he, hes, rfl⟩ := call_compile_ok.1 ht
    exact ⟨hm, Expr.compile_listable target e he, Expr.compileArgs_listable args es hes⟩
  | .unary _ operand => by
    intro _ ht
    rcases unary_compile_ok.1 ht with ⟨op, e, -, he, rfl⟩ | ⟨op, x, y, -, -, hx, hy, rfl⟩
    · exact Expr.compile_listable operand e he
    · rw [Term.Listable, resolve?_name hy]
      exact hx
  | .binary _ left right => by
    intro _ ht
    obtain ⟨op, l, r, -, hl, hr, rfl⟩ := binary_compile_ok.1 ht
    exact ⟨Expr.compile_listable left l hl, Expr.compile_listable right r hr⟩
  | .conditional condition ifTrue ifFalse => by
    intro _ ht
    obtain ⟨c, a, b, hc, ha, hb, rfl⟩ := conditional_compile_ok.1 ht
    exact ⟨Expr.compile_listable condition c hc, Expr.compile_listable ifTrue a ha,
      Expr.compile_listable ifFalse b hb⟩

theorem Expr.compileArgs_listable : ∀ (es : List Expr) (ts : List Term),
    (Expr.compileArgs scope es).result = .ok ts → Term.ListableArgs ts
  | [] => by
    intro _ ht
    cases ht
    trivial
  | e :: rest => by
    intro _ ht
    obtain ⟨t, more, he, hm, rfl⟩ := compileArgs_cons_ok.1 ht
    exact ⟨Expr.compile_listable e t he, Expr.compileArgs_listable rest more hm⟩

end

/-- What holds of every compiled expression holds of the terms of every compiled part. -/
theorem Compiled.everyTerm {term : Term → Prop}
    (hterm : ∀ (scope : Scope) (e : Expr) (t : Term), (e.compile scope).result = .ok t → term t) {part : Part}
    {steps : List Step} (h : Compiled scope part steps scope') :
    Step.EveryAll term (fun _ => True) (fun _ => True) steps := by
  induction h with
  | store he _ | declare he _ _ | assign he _ _ => exact ⟨⟨trivial, hterm _ _ _ he⟩, trivial⟩
  | when hc _ ih | switch hc _ ih => exact ⟨⟨hterm _ _ _ hc, ih.1⟩, trivial⟩
  | choose hc _ _ ihb iho => exact ⟨⟨hterm _ _ _ hc, ihb.1, iho.1⟩, trivial⟩
  | loop _ hc _ _ ihi ihu ihb => exact ⟨⟨fun _ _ => trivial, ihi.1, hterm _ _ _ hc, ihu.1, ihb.1⟩, trivial⟩
  | each _ hc _ ih => exact ⟨⟨trivial, hterm _ _ _ hc, ih.1⟩, trivial⟩
  | label => exact ⟨trivial, trivial⟩
  | guarded _ he | evaluate he | emit he => exact ⟨hterm _ _ _ he, trivial⟩
  | update _ ih | statement _ ih | block _ ih => exact ih
  | body _ ih =>
    refine ⟨⟨fun _ _ => trivial, ?_⟩, trivial⟩
    rwa [everyAll_joinWrites]
  | text | nil | flag | noAttributes => simp [Step.EveryAll, Step.Every]
  | closed _ _ _ ih | valued _ _ ih => simpa [Step.EveryAll, Step.Every, everyAll_append] using ih
  | element _ _ _ _ iht ihc => simpa [Step.EveryAll, Step.Every, everyAll_append] using ⟨iht, ihc⟩
  | cons _ _ ihs ihr | moreAttributes _ _ ihs ihr => exact (everyAll_append _ _).2 ⟨ihs, ihr⟩

end Listable

section Parts
variable {term : Term → Prop} {slot : Nat → Prop} {place : Place → Prop}

mutual

theorem Step.Every.parts : ∀ {step : Step}, step.Every term slot place → ∀ s ∈ step.parts, ∀ e ∈ s.terms, term e
  | .write _, _ | .label _ none, _ => by simp [Step.parts, Step.terms]
  | .emit _, h | .eval _, h | .label _ (some _), h => by simpa [Step.parts, Step.terms, Step.Every] using h
  | .declare _ _, h | .assign _ _, h | .store _ _, h => by simpa [Step.parts, Step.terms] using h.2
  | .block _, h => by simpa [Step.parts, Step.terms] using Block.Every.parts h
  | .when _ _, h | .switch _ _, h => by simpa [Step.parts, Step.terms] using ⟨h.1, Block.Every.parts h.2⟩
  | .choose _ _ _, h => by
    simpa [Step.parts, Step.terms, or_imp, forall_and] using
      ⟨h.1, Block.Every.parts h.2.1, Block.Every.parts h.2.2⟩
  | .loop _ _ _ _ _, ⟨_, hi, hc, hu, hb⟩ => by
    simpa [Step.parts, Step.terms, or_imp, forall_and] using
      ⟨hc, Step.Every.parts hi, Step.Every.parts hu, Block.Every.parts hb⟩
  | .each _ _ _, h => by simpa [Step.parts, Step.terms] using ⟨h.2.1, Block.Every.parts h.2.2⟩

theorem Block.Every.parts : ∀ {b : Block}, b.Every term slot place → ∀ s ∈ b.parts, ∀ e ∈ s.terms, term e
  | .mk _ _, h => Step.EveryAll.parts h.2

theorem Step.EveryAll.parts : ∀ {steps : List Step}, Step.EveryAll term slot place steps →
    ∀ s ∈ Step.partsAll steps, ∀ e ∈ s.terms, term e
  | [], _ => by simp [Step.partsAll]
  | _ :: _, h => by
    simpa [Step.partsAll, or_imp, forall_and] using ⟨Step.Every.parts h.1, Step.EveryAll.parts h.2⟩

end

end Parts

mutual

theorem Term.Listable.parts : ∀ {t : Term}, t.Listable → ∀ u ∈ t.parts, u.Listable
  | .const _, h | .variable _, h | .model _, h | .update _ _, h => by simpa [Term.parts] using h
  | .member _ _, h => by simpa [Term.parts] using ⟨h, Term.Listable.parts h.2⟩
  | .unary _ operand, h => by
    have hoperand : operand.Listable := h
    simpa [Term.parts] using ⟨h, Term.Listable.parts hoperand⟩
  | .index _ _, h | .binary _ _ _, h => by
    simpa [Term.parts, or_imp, forall_and] using ⟨h, Term.Listable.parts h.1, Term.Listable.parts h.2⟩
  | .call _ _ _, h => by
    simpa [Term.parts, or_imp, forall_and] using ⟨h, Term.Listable.parts h.2.1, Term.ListableArgs.parts h.2.2⟩
  | .conditional _ _ _, h => by
    simpa [Term.parts, or_imp, forall_and] using
      ⟨h, Term.Listable.parts h.1, Term.Listable.parts h.2.1, Term.Listable.parts h.2.2⟩

theorem Term.ListableArgs.parts : ∀ {args : List Term}, Term.ListableArgs args → ∀ u ∈ Term.partsArgs args, u.Listable
  | [], _ => by simp [Term.partsArgs]
  | _ :: _, h => by
    simpa [Term.partsArgs, or_imp, forall_and] using ⟨Term.Listable.parts h.1, Term.ListableArgs.parts h.2⟩

end

theorem compile_listable {segments : List Segment} {program : Program} (h : (compile segments).result = .ok program)
    {t : Term} (ht : t ∈ program.terms) : t.Listable := by
  obtain ⟨steps, scope, hc, rfl⟩ := compile_ok_iff.1 h
  have hsteps := hc.everyTerm fun _ => Expr.compile_listable
  rw [← everyAll_joinWrites] at hsteps
  obtain ⟨step, hstep, ht⟩ := List.mem_flatMap.1 ht
  obtain ⟨e, he, ht⟩ := List.mem_flatMap.1 ht
  exact (hsteps.parts step hstep e he).parts t ht

/-! ## Leaves -/

/-- What stands at a leaf of a term. -/
inductive Leaf where
  | variable (x : String)
  | model (name : String)
  | const (v : Value)

/-- How a leaf is listed, but for the minus of a negative number. -/
def Leaf.word : Leaf → List Char
  | .variable x => x.toList
  | .model name => '$' :: name.toList
  | .const v => v.word

mutual

/-- The leaves of a term from left to right. -/
def Term.leaves : Term → List Leaf
  | .const v => [.const v]
  | .variable x | .update _ x => [.variable x.name]
  | .model name => [.model name]
  | .member target _ => target.leaves
  | .index target position => target.leaves ++ position.leaves
  | .call target _ args => target.leaves ++ Term.leavesArgs args
  | .unary _ operand => operand.leaves
  | .binary _ left right => left.leaves ++ right.leaves
  | .conditional condition ifTrue ifFalse => condition.leaves ++ ifTrue.leaves ++ ifFalse.leaves

def Term.leavesArgs : List Term → List Leaf
  | [] => []
  | e :: rest => e.leaves ++ Term.leavesArgs rest

end

mutual

/-- The tokens of a phrase from left to right. -/
def Phrase.tokens : Phrase → List Token
  | .operand o => o.tokens
  | .binary _ left right => left.tokens ++ right.tokens
  | .conditional condition ifTrue ifFalse => condition.tokens ++ ifTrue.tokens ++ ifFalse.tokens

def Operand.tokens : Operand → List Token
  | .mk _ head links => head.tokens ++ Link.tokensAll links

def Head.tokens : Head → List Token
  | .token t => [t]
  | .nested p => p.tokens

def Link.tokens : Link → List Token
  | .member _ => []
  | .index p => p.tokens
  | .call _ args => Phrase.tokensAll args

def Link.tokensAll : List Link → List Token
  | [] => []
  | link :: rest => link.tokens ++ Link.tokensAll rest

def Phrase.tokensAll : List Phrase → List Token
  | [] => []
  | p :: rest => p.tokens ++ Phrase.tokensAll rest

end

@[simp] theorem Operand.tokens_ofToken (t : Token) : (Operand.ofToken t).tokens = [t] := rfl

@[simp] theorem Operand.tokens_signed (signs : List Sign) (o : Operand) : (o.signed signs).tokens = o.tokens := by
  cases o
  rfl

theorem Link.tokensAll_concat (links : List Link) (link : Link) :
    Link.tokensAll (links ++ [link]) = Link.tokensAll links ++ link.tokens := by
  induction links with
  | nil => simp [Link.tokensAll]
  | cons first links ih => simp [Link.tokensAll, ih]

@[simp] theorem Operand.tokens_linked (link : Link) (o : Operand) :
    (o.linked link).tokens = o.tokens ++ link.tokens := by
  obtain ⟨signs, head, links⟩ := o
  simp [Operand.linked, Operand.tokens, Link.tokensAll_concat]

@[simp] theorem Phrase.tokens_asOperand (p : Phrase) : p.asOperand.tokens = p.tokens := by
  cases p with
  | operand o => rfl
  | binary | conditional => simp [Phrase.asOperand, Operand.tokens, Head.tokens, Link.tokensAll]

/-! ## The phrase of a term -/

theorem isToken_model {name : String} (h : isIdentifier name) : IsToken ('$' :: name.toList) := by
  refine .word (by simp) ?_
  rw [List.forall_mem_cons]
  exact ⟨by decide, Name.word ⟨name, h⟩⟩

mutual

def Term.phrase : (t : Term) → t.Listable → Phrase
  | .const v, h => .operand (.signed v.signs (.ofToken ⟨v.word, Value.isToken_word h⟩))
  | .variable x, h => .operand (.ofToken ⟨x.name.toList, isToken_of_isIdentifier h⟩)
  | .model name, h => .operand (.ofToken ⟨'$' :: name.toList, isToken_model h⟩)
  | .member target name, h => .operand ((target.phrase h.2).asOperand.linked (.member ⟨name, h.1⟩))
  | .index target position, h =>
    .operand ((target.phrase h.1).asOperand.linked (.index (position.phrase h.2)))
  | .call target method args, h =>
    .operand ((target.phrase h.2.1).asOperand.linked (.call ⟨method, h.1⟩ (Term.phrases args h.2.2)))
  | .unary op operand, h =>
    have hoperand : operand.Listable := h
    .operand ((operand.phrase hoperand).asOperand.signed (PrefixOp.unary op).signs)
  | .update op x, h =>
    .operand (.signed (PrefixOp.update op).signs (.ofToken ⟨x.name.toList, isToken_of_isIdentifier h⟩))
  | .binary op left right, h => .binary op (left.phrase h.1).asOperand (right.phrase h.2).asOperand
  | .conditional condition ifTrue ifFalse, h =>
    .conditional (condition.phrase h.1).asOperand (ifTrue.phrase h.2.1).asOperand (ifFalse.phrase h.2.2).asOperand

def Term.phrases : (args : List Term) → Term.ListableArgs args → List Phrase
  | [], _ => []
  | e :: rest, h => e.phrase h.1 :: Term.phrases rest h.2

end

theorem Term.isCompound_phrase (t : Term) (h : t.Listable) : (t.phrase h).isCompound = t.isCompound := by
  cases t <;> rfl

theorem Term.text_operand {t : Term} {h : t.Listable} (ht : (t.phrase h).text = t.listing.toList) :
    (t.phrase h).asOperand.text = (parenthesise t.isCompound t.listing).toList := by
  rw [← t.isCompound_phrase h]
  exact Phrase.text_asOperand ht

mutual

/-- The listing of a term is the text of its phrase. -/
theorem Term.text_phrase : ∀ (t : Term) (h : t.Listable), (t.phrase h).text = t.listing.toList
  | .const v, _ => by simp [Term.phrase, Phrase.text, Term.listing, Value.signs_word]
  | .variable _, _ | .model _, _ => by simp [Term.phrase, Phrase.text, Term.listing]
  | .update op _, _ => by
    simp [Term.phrase, Phrase.text, Term.listing, PrefixOp.map_signs, PrefixOp.symbol]
  | .member target _, h => by
    simp [Term.phrase, Phrase.text, Term.listing, Link.text, Term.text_operand (Term.text_phrase target h.2)]
  | .index target position, h => by
    simp [Term.phrase, Phrase.text, Term.listing, Link.text, Term.text_operand (Term.text_phrase target h.1),
      Term.text_phrase position h.2]
  | .call target _ args, h => by
    simp [Term.phrase, Phrase.text, Term.listing, Link.text, Term.text_operand (Term.text_phrase target h.2.1),
      Phrase.textArgs_toList (Term.texts_phrases args h.2.2)]
  | .unary op operand, h => by
    simp [Term.phrase, Phrase.text, Term.listing, Term.text_operand (Term.text_phrase operand h),
      PrefixOp.map_signs, PrefixOp.symbol]
  | .binary op left right, h => by
    simp [Term.phrase, Phrase.text, Term.listing, Term.text_operand (Term.text_phrase left h.1),
      Term.text_operand (Term.text_phrase right h.2)]
  | .conditional condition ifTrue ifFalse, h => by
    simp [Term.phrase, Phrase.text, Term.listing, Term.text_operand (Term.text_phrase condition h.1),
      Term.text_operand (Term.text_phrase ifTrue h.2.1), Term.text_operand (Term.text_phrase ifFalse h.2.2)]

theorem Term.texts_phrases : ∀ (args : List Term) (h : Term.ListableArgs args),
    (Term.phrases args h).map Phrase.text = (Term.listingArgs args).map String.toList
  | [], _ => rfl
  | e :: rest, h => by simp [Term.phrases, Term.listingArgs, Term.text_phrase e h.1, Term.texts_phrases rest h.2]

end

mutual

/-- The tokens of the phrase are the words of the leaves. -/
theorem Term.tokens_phrase : ∀ (t : Term) (h : t.Listable), (t.phrase h).tokens.map Subtype.val = t.leaves.map Leaf.word
  | .const _, _ | .variable _, _ | .model _, _ | .update _ _, _ => by
    simp [Term.phrase, Phrase.tokens, Term.leaves, Leaf.word]
  | .member target _, h => by
    simp [Term.phrase, Phrase.tokens, Term.leaves, Link.tokens, Term.tokens_phrase target h.2]
  | .index target position, h => by
    simp [Term.phrase, Phrase.tokens, Term.leaves, Link.tokens, Term.tokens_phrase target h.1,
      Term.tokens_phrase position h.2]
  | .call target _ args, h => by
    simp [Term.phrase, Phrase.tokens, Term.leaves, Link.tokens, Term.tokens_phrase target h.2.1,
      Term.tokensAll_phrases args h.2.2]
  | .unary _ operand, h => by
    simp [Term.phrase, Phrase.tokens, Term.leaves, Term.tokens_phrase operand h]
  | .binary _ left right, h => by
    simp [Term.phrase, Phrase.tokens, Term.leaves, Term.tokens_phrase left h.1, Term.tokens_phrase right h.2]
  | .conditional condition ifTrue ifFalse, h => by
    simp [Term.phrase, Phrase.tokens, Term.leaves, Term.tokens_phrase condition h.1, Term.tokens_phrase ifTrue h.2.1,
      Term.tokens_phrase ifFalse h.2.2]

theorem Term.tokensAll_phrases : ∀ (args : List Term) (h : Term.ListableArgs args),
    (Phrase.tokensAll (Term.phrases args h)).map Subtype.val = (Term.leavesArgs args).map Leaf.word
  | [], _ => rfl
  | e :: rest, h => by
    simp [Term.phrases, Phrase.tokensAll, Term.leavesArgs, Term.tokens_phrase e h.1, Term.tokensAll_phrases rest h.2]

end

/-- Terms with one listing have the same words at their leaves. -/
theorem words_eq_of_listing_eq {t u : Term} (ht : t.Listable) (hu : u.Listable) (h : t.listing = u.listing) :
    t.leaves.map Leaf.word = u.leaves.map Leaf.word := by
  have hphrase : t.phrase ht = u.phrase hu := by
    apply Phrase.text_inj
    rw [Term.text_phrase, Term.text_phrase, h]
  rw [← t.tokens_phrase ht, ← u.tokens_phrase hu, hphrase]

/-! ## Words and leaves -/

/-- Names are identifiers, and constants are those of literals. -/
def Leaf.Valid : Leaf → Prop
  | .variable x | .model x => isIdentifier x
  | .const v => v.IsConstant

mutual

theorem Term.leaves_valid : ∀ (t : Term), t.Listable → ∀ leaf ∈ t.leaves, leaf.Valid
  | .const _, h | .variable _, h | .model _, h | .update _ _, h => List.forall_mem_singleton.2 h
  | .member target _, h => Term.leaves_valid target h.2
  | .unary _ operand, h => Term.leaves_valid operand h
  | .index target position, h =>
    List.forall_mem_append.2 ⟨Term.leaves_valid target h.1, Term.leaves_valid position h.2⟩
  | .call target _ args, h =>
    List.forall_mem_append.2 ⟨Term.leaves_valid target h.2.1, Term.leavesArgs_valid args h.2.2⟩
  | .binary _ left right, h =>
    List.forall_mem_append.2 ⟨Term.leaves_valid left h.1, Term.leaves_valid right h.2⟩
  | .conditional condition ifTrue ifFalse, h =>
    List.forall_mem_append.2 ⟨List.forall_mem_append.2 ⟨Term.leaves_valid condition h.1,
      Term.leaves_valid ifTrue h.2.1⟩, Term.leaves_valid ifFalse h.2.2⟩

theorem Term.leavesArgs_valid : ∀ (args : List Term), Term.ListableArgs args → ∀ leaf ∈ Term.leavesArgs args, leaf.Valid
  | [], _ => by simp [Term.leavesArgs]
  | e :: rest, h => List.forall_mem_append.2 ⟨Term.leaves_valid e h.1, Term.leavesArgs_valid rest h.2⟩

end

/-- The same variable, the same name of the model, or constants that are listed alike. -/
inductive Leaf.Same : Leaf → Leaf → Prop
  | variable (x) : Same (.variable x) (.variable x)
  | model (name) : Same (.model name) (.model name)
  | const {v w} : v.word = w.word → Same (.const v) (.const w)

/-- A local variable that is listed like a name of the model or like a constant. -/
inductive Leaf.Confused : Leaf → Leaf → Prop
  | model (name) : Confused (.variable ("$" ++ name)) (.model name)
  | const {v} : v.listing ∈ keywords → Confused (.variable v.listing) (.const v)

/-- The same but for a local variable that is listed like the other leaf. -/
def Leaf.Alike (a b : Leaf) : Prop := a.Same b ∨ a.Confused b ∨ b.Confused a

/-- An identifier is a constant's word only if it is a keyword. -/
theorem Leaf.confused_const {x : String} {v : Value} (hx : isIdentifier x) (hv : v.IsConstant)
    (h : x.toList = v.word) : Confused (.variable x) (.const v) := by
  obtain ⟨c, rest, hc, hdigit⟩ := Name.head ⟨x, hx⟩
  have hword := Name.word ⟨x, hx⟩ c (by simp [hc])
  change x.toList = c :: rest at hc
  -- A number starts with a digit and a text with a quote, and an identifier with neither.
  rcases Value.word_cases hv with ⟨hkeyword, heq⟩ | hnumber | ⟨cs, -, heq⟩
  · obtain rfl : x = v.listing := String.toList_inj.1 (h.trans heq)
    exact .const hkeyword
  · obtain ⟨d, ds, heq, hd⟩ := hnumber.head
    rw [h, heq] at hc
    rw [(List.cons.inj hc).1] at hd
    exact absurd hd hdigit
  · rw [h, heq] at hc
    rw [← (List.cons.inj hc).1] at hword
    exact absurd hword (by decide)

/-- No constant is listed with a dollar sign in front. -/
theorem Value.word_ne_dollar {v : Value} (hv : v.IsConstant) (rest : List Char) : '$' :: rest ≠ v.word := by
  intro h
  rcases Value.word_cases hv with ⟨hkeyword, heq⟩ | hnumber | ⟨cs, -, heq⟩
  · have hkeywords : ∀ w ∈ keywords, w.toList.head? ≠ some '$' := by decide
    exact hkeywords v.listing hkeyword (by rw [← heq, ← h]; rfl)
  · obtain ⟨d, ds, heq, hd⟩ := hnumber.head
    rw [← h] at heq
    rw [← (List.cons.inj heq).1] at hd
    cases hd
  · rw [heq] at h
    simp at h

theorem Leaf.alike_of_word_eq : ∀ {a b : Leaf}, a.Valid → b.Valid → a.word = b.word → a.Alike b
  | .variable x, .variable y, _, _, h => by
    obtain rfl := String.toList_inj.1 h
    exact .inl (.variable x)
  | .model name, .model other, _, _, h => by
    obtain rfl := String.toList_inj.1 (List.cons.inj h).2
    exact .inl (.model name)
  | .const _, .const _, _, _, h => .inl (.const h)
  | .variable x, .model name, _, _, h => by
    obtain rfl : x = "$" ++ name := String.toList_inj.1 (h.trans (by simp [Leaf.word]))
    exact .inr (.inl (.model name))
  | .model name, .variable x, _, _, h => by
    obtain rfl : x = "$" ++ name := String.toList_inj.1 (h.symm.trans (by simp [Leaf.word]))
    exact .inr (.inr (.model name))
  | .variable _, .const _, ha, hb, h => .inr (.inl (Leaf.confused_const ha hb h))
  | .const _, .variable _, ha, hb, h => .inr (.inr (Leaf.confused_const hb ha h.symm))
  | .model _, .const _, _, hb, h => absurd h (Value.word_ne_dollar hb _)
  | .const _, .model _, ha, _, h => absurd h.symm (Value.word_ne_dollar ha _)

theorem Leaf.alike_of_words_eq {as bs : List Leaf} (ha : ∀ a ∈ as, a.Valid) (hb : ∀ b ∈ bs, b.Valid)
    (h : as.map Leaf.word = bs.map Leaf.word) : List.Forall₂ Leaf.Alike as bs := by
  induction as generalizing bs with
  | nil =>
    obtain rfl : bs = [] := by simpa using h.symm
    exact .nil
  | cons a as ih =>
    cases bs with
    | nil => cases h
    | cons b bs =>
      rw [List.forall_mem_cons] at ha hb
      obtain ⟨hword, hrest⟩ := List.cons.inj h
      exact .cons (Leaf.alike_of_word_eq ha.1 hb.1 hword) (ih ha.2 hb.2 hrest)

/-! ## Variables in listings -/

def Leaf.isVariable : Leaf → Bool
  | .variable _ | .model _ => true
  | .const _ => false

/-- The local variables and the names of the model in a term, from left to right. -/
def Term.variables (t : Term) : List Leaf := t.leaves.filter Leaf.isVariable

/-- A name that is listed like nothing else: without a dollar sign in front, and not the name of a constant. -/
def PlainName (x : String) : Prop := x.toList.head? ≠ some '$' ∧ x ∉ keywords

theorem Leaf.Confused.not_plain {a b : Leaf} (h : a.Confused b) : ∃ x, a = .variable x ∧ ¬PlainName x := by
  cases h with
  | model name => exact ⟨_, rfl, fun hplain => hplain.1 (by simp)⟩
  | const hkeyword => exact ⟨_, rfl, fun hplain => hplain.2 hkeyword⟩

theorem variables_eq_of_alike {as bs : List Leaf} (h : List.Forall₂ Leaf.Alike as bs)
    (ha : ∀ x, .variable x ∈ as → PlainName x) (hb : ∀ x, .variable x ∈ bs → PlainName x) :
    as.filter Leaf.isVariable = bs.filter Leaf.isVariable := by
  induction h with
  | nil => rfl
  | @cons a b as bs hab _ ih =>
    have hrest := ih (fun x hx => ha x (List.mem_cons_of_mem _ hx)) (fun x hx => hb x (List.mem_cons_of_mem _ hx))
    rcases hab with hsame | hconfused | hconfused
    · rcases hsame with x | name | hword
      · rw [List.filter_cons_of_pos rfl, List.filter_cons_of_pos rfl, hrest]
      · rw [List.filter_cons_of_pos rfl, List.filter_cons_of_pos rfl, hrest]
      · simpa [Leaf.isVariable] using hrest
    · obtain ⟨x, rfl, hx⟩ := hconfused.not_plain
      exact absurd (ha x List.mem_cons_self) hx
    · obtain ⟨x, rfl, hx⟩ := hconfused.not_plain
      exact absurd (hb x List.mem_cons_self) hx

/--
Terms of compiled programs with one listing have the same leaves one by one, but for local variables that are listed
like names of the model or like constants. So where no local variable has a name of that kind, the terms have the same
variables, local or of the model, in the same order.
-/
theorem listing_leaves_alike {segments segments' : List Segment} {program program' : Program}
    (hc : (compile segments).result = .ok program) (hc' : (compile segments').result = .ok program') {t u : Term}
    (ht : t ∈ program.terms) (hu : u ∈ program'.terms) (h : t.listing = u.listing) :
    List.Forall₂ Leaf.Alike t.leaves u.leaves ∧
      ((∀ x, .variable x ∈ t.leaves ++ u.leaves → PlainName x) → t.variables = u.variables) := by
  have hlistable := compile_listable hc ht
  have hlistable' := compile_listable hc' hu
  have halike := Leaf.alike_of_words_eq (t.leaves_valid hlistable) (u.leaves_valid hlistable')
    (words_eq_of_listing_eq hlistable hlistable' h)
  refine ⟨halike, fun hplain => variables_eq_of_alike halike ?_ ?_⟩
  · exact fun x hx => hplain x (List.mem_append_left _ hx)
  · exact fun x hx => hplain x (List.mem_append_right _ hx)

/-- A sign before a chain and a sign at its start, with a local variable and a name of the model. -/
def signedReads : List Segment :=
  [.statement (.assign (.name "x") (.literal "1")),
    .expr (.unary "-" (.index (.name "x") (.name "total"))),
    .expr (.index (.unary "-" (.name "x")) (.name "total"))]

def signedReadsProgram : Program where
  body := .mk [0]
    [.declare ⟨0, "x"⟩ (.const (.integer 1)),
      .emit (.unary .negate (.index (.variable ⟨0, "x"⟩) (.model "total"))),
      .emit (.index (.unary .negate (.variable ⟨0, "x"⟩)) (.model "total"))]
  slots := 1

theorem listing_leaves_alike_signedReads :
    (compile signedReads).result = .ok signedReadsProgram ∧
      ∃ t ∈ signedReadsProgram.terms, ∃ u ∈ signedReadsProgram.terms, t ≠ u ∧ t.listing = u.listing ∧
        t.variables = u.variables ∧ t.variables = [.variable "x", .model "total"] := by
  have hc : (compile signedReads).result = .ok signedReadsProgram := rfl
  have ht : .unary .negate (.index (.variable ⟨0, "x"⟩) (.model "total")) ∈ signedReadsProgram.terms := by
    simp [Program.terms, Program.steps, signedReadsProgram, Block.parts, Step.partsAll, Step.parts, Step.terms,
      Term.parts]
  have hu : .index (.unary .negate (.variable ⟨0, "x"⟩)) (.model "total") ∈ signedReadsProgram.terms := by
    simp [Program.terms, Program.steps, signedReadsProgram, Block.parts, Step.partsAll, Step.parts, Step.terms,
      Term.parts]
  refine ⟨hc, _, ht, _, hu, nofun, rfl, (listing_leaves_alike hc hc ht hu rfl).2 ?_, rfl⟩
  intro x hx
  obtain rfl : x = "x" := by simpa [Term.leaves] using hx
  exact ⟨by decide, by decide⟩

/-- Local variables called `$x` and `null`, the model's `x` and the constant `null`. -/
def confusedNames : List Segment :=
  [.statement (.assign (.name "$x") (.literal "1")), .statement (.assign (.name "null") (.literal "2")),
    .expr (.name "$x"), .expr (.name "x"), .expr (.name "null"), .expr (.literal "null")]

def confusedNamesProgram : Program where
  body := .mk [0, 1]
    [.declare ⟨0, "$x"⟩ (.const (.integer 1)), .declare ⟨1, "null"⟩ (.const (.integer 2)),
      .emit (.variable ⟨0, "$x"⟩), .emit (.model "x"), .emit (.variable ⟨1, "null"⟩), .emit (.const .null)]
  slots := 2

/-- A local variable is listed like a name of the model, and another one like a constant. -/
theorem listing_hides_locals :
    (compile confusedNames).result = .ok confusedNamesProgram ∧
      (∀ t ∈ [.variable ⟨0, "$x"⟩, .model "x", .variable ⟨1, "null"⟩, .const .null],
        t ∈ confusedNamesProgram.terms) ∧
      (Term.variable ⟨0, "$x"⟩).listing = (Term.model "x").listing ∧
      (Term.variable ⟨0, "$x"⟩).variables ≠ (Term.model "x").variables ∧
      (Term.variable ⟨1, "null"⟩).listing = (Term.const .null).listing ∧
      (Term.variable ⟨1, "null"⟩).variables ≠ (Term.const .null).variables := by
  refine ⟨rfl, ?_, rfl, nofun, rfl, nofun⟩
  simp [Program.terms, Program.steps, confusedNamesProgram, Block.parts, Step.partsAll, Step.parts, Step.terms,
    Term.parts]

end Stencil
