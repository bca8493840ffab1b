import Mathlib
import Stencil.Operator.Basic
import Stencil.Template.Printer
/-!
# Phrases

Expressions, and the terms that they are compiled to, are written in one form. A `Phrase` is what can be told from
such a text: signs in front of a token or of a phrase in parentheses, then members, positions and calls, and
operators with blanks around them. A text is the text of one phrase only (`Phrase.text_inj`), because each piece of
it ends where a character follows that cannot continue it.
-/

namespace Stencil

/-! ## Where a piece of text ends -/

theorem head_cons {P : Char → Prop} {c : Char} (h : P c) (cs : List Char) : ∀ d ∈ (c :: cs).head?, P d := by
  rintro _ ⟨⟩
  exact h

/-- A run of characters of one kind ends where a character of another kind follows. -/
theorem run_append_inj {P : Char → Prop} {cs ds rest rest' : List Char} (hcs : ∀ c ∈ cs, P c) (hds : ∀ c ∈ ds, P c)
    (hr : ∀ c ∈ rest.head?, ¬P c) (hr' : ∀ c ∈ rest'.head?, ¬P c) (h : cs ++ rest = ds ++ rest') :
    cs = ds ∧ rest = rest' := by
  induction cs generalizing ds with
  | nil =>
    cases ds with
    | nil => exact ⟨rfl, h⟩
    | cons d ds => exact absurd (hds d (by simp)) (hr d (by simp_all))
  | cons c cs ih =>
    cases ds with
    | nil =>
      obtain rfl : rest' = c :: (cs ++ rest) := h.symm
      exact absurd (hcs c (by simp)) (hr' c rfl)
    | cons d ds =>
      obtain ⟨rfl, htail⟩ := List.cons.inj h
      obtain ⟨rfl, hrest⟩ := ih (fun c hc => hcs c (by simp [hc])) (fun c hc => hds c (by simp [hc])) htail
      exact ⟨rfl, hrest⟩

/-! ## Tokens -/

/-- The characters of names and of whole numbers. -/
def IsWordChar (c : Char) : Prop := c.isAlphanum ∨ c = '_' ∨ c = '$'

instance : DecidablePred IsWordChar := fun _ => inferInstanceAs (Decidable (_ ∨ _))

theorem isWordChar_of_isDigit {c : Char} (h : c.isDigit) : IsWordChar c := .inl (by simp [Char.isAlphanum, h])

/-- Without quotes, but for those after a backslash. -/
inductive Escaped : List Char → Prop
  | nil : Escaped []
  | plain {c cs} : c ≠ '"' → c ≠ '\\' → Escaped cs → Escaped (c :: cs)
  | escape {c cs} : Escaped cs → Escaped ('\\' :: c :: cs)

/-- Words, numbers with a fraction, and texts in quotes. -/
inductive IsToken : List Char → Prop
  | word {cs} : cs ≠ [] → (∀ c ∈ cs, IsWordChar c) → IsToken cs
  | decimal {cs ds} : cs ≠ [] → (∀ c ∈ cs, IsWordChar c) → ds ≠ [] → (∀ c ∈ ds, c.isDigit) →
      IsToken (cs ++ '.' :: ds)
  | quoted {cs} : Escaped cs → IsToken ('"' :: cs ++ ['"'])

/-- What may follow a token: nothing that continues a word, and no fraction. -/
structure EndsToken (rest : List Char) : Prop where
  word : ∀ c ∈ rest.head?, ¬IsWordChar c
  fraction : ∀ c more, rest = '.' :: c :: more → ¬c.isDigit

theorem Escaped.append {cs ds : List Char} (hcs : Escaped cs) (hds : Escaped ds) : Escaped (cs ++ ds) := by
  induction hcs with
  | nil => exact hds
  | plain hq hb _ ih => exact .plain hq hb ih
  | escape _ ih => exact .escape ih

/-- The first quote that is not escaped ends the text. -/
theorem Escaped.append_inj {cs ds rest rest' : List Char} (hcs : Escaped cs) (hds : Escaped ds)
    (h : cs ++ '"' :: rest = ds ++ '"' :: rest') : cs = ds ∧ rest = rest' := by
  induction hcs generalizing ds with
  | nil =>
    cases hds with
    | nil => exact ⟨rfl, (List.cons.inj h).2⟩
    | plain hq => exact absurd (List.cons.inj h).1.symm hq
    | escape => simp at h
  | plain hq hb _ ih =>
    cases hds with
    | nil => exact absurd (List.cons.inj h).1 hq
    | plain _ _ hds =>
      obtain ⟨rfl, htail⟩ := List.cons.inj h
      obtain ⟨rfl, hrest⟩ := ih hds htail
      exact ⟨rfl, hrest⟩
    | escape => exact absurd (List.cons.inj h).1 hb
  | escape _ ih =>
    cases hds with
    | nil => simp at h
    | plain _ hb => exact absurd (List.cons.inj h).1.symm hb
    | escape hds =>
      obtain ⟨rfl, htail⟩ : _ ∧ _ := by simpa using h
      obtain ⟨rfl, hrest⟩ := ih hds htail
      exact ⟨rfl, hrest⟩

theorem word_append_inj {cs ds rest rest' : List Char} (hcs : ∀ c ∈ cs, IsWordChar c) (hds : ∀ c ∈ ds, IsWordChar c)
    (hr : EndsToken rest) (hr' : EndsToken rest') (h : cs ++ rest = ds ++ rest') : cs = ds ∧ rest = rest' :=
  run_append_inj hcs hds hr.word hr'.word h

/-- A word is not the whole part of a number with a fraction. -/
theorem word_append_ne_decimal {cs ds fs rest rest' : List Char} (hcs : ∀ c ∈ cs, IsWordChar c)
    (hds : ∀ c ∈ ds, IsWordChar c) (hf : fs ≠ []) (hfs : ∀ c ∈ fs, c.isDigit) (hr : EndsToken rest) :
    cs ++ rest ≠ ds ++ '.' :: fs ++ rest' := by
  intro h
  obtain ⟨f, fs, rfl⟩ := List.exists_cons_of_ne_nil hf
  rw [List.append_assoc] at h
  obtain ⟨-, hrest⟩ := run_append_inj hcs hds hr.word (head_cons (by decide) _) h
  exact hr.fraction f _ hrest (hfs f (by simp))

theorem word_append_ne_quoted {cs rest more : List Char} (hne : cs ≠ []) (hcs : ∀ c ∈ cs, IsWordChar c) :
    cs ++ rest ≠ '"' :: more := by
  intro h
  obtain ⟨c, cs, rfl⟩ := List.exists_cons_of_ne_nil hne
  have hc := hcs c (by simp)
  rw [(List.cons.inj h).1] at hc
  revert hc
  decide

/-- A token ends where nothing follows that continues it. -/
theorem IsToken.append_inj {cs ds rest rest' : List Char} (hcs : IsToken cs) (hds : IsToken ds)
    (hr : EndsToken rest) (hr' : EndsToken rest') (h : cs ++ rest = ds ++ rest') : cs = ds ∧ rest = rest' := by
  cases hcs with
  | word hne hcs =>
    cases hds with
    | word _ hds => exact word_append_inj hcs hds hr hr' h
    | decimal _ hds hf hfs => exact absurd h (word_append_ne_decimal hcs hds hf hfs hr)
    | quoted => exact absurd h (word_append_ne_quoted hne hcs)
  | decimal hne hcs hf hfs =>
    cases hds with
    | word _ hds => exact absurd h.symm (word_append_ne_decimal hds hcs hf hfs hr')
    | decimal _ hds _ hgs =>
      rw [List.append_assoc, List.append_assoc] at h
      obtain ⟨rfl, htail⟩ := run_append_inj hcs hds (head_cons (by decide) _) (head_cons (by decide) _) h
      obtain ⟨rfl, hrest⟩ := word_append_inj (fun c hc => isWordChar_of_isDigit (hfs c hc))
        (fun c hc => isWordChar_of_isDigit (hgs c hc)) hr hr' (List.cons.inj htail).2
      exact ⟨rfl, hrest⟩
    | quoted =>
      rw [List.append_assoc] at h
      exact absurd h (word_append_ne_quoted hne hcs)
  | quoted hcs =>
    cases hds with
    | word hne hds => exact absurd h.symm (word_append_ne_quoted hne hds)
    | decimal hne hds =>
      rw [eq_comm, List.append_assoc] at h
      exact absurd h (word_append_ne_quoted hne hds)
    | quoted hds =>
      obtain ⟨rfl, hrest⟩ := hcs.append_inj hds (by simpa using h)
      exact ⟨rfl, hrest⟩

abbrev Token := { cs : List Char // IsToken cs }

/-! ## Phrases -/

/-- The name of a member or of a method. -/
abbrev Name := { x : String // isIdentifier x }

inductive Sign where
  | not
  | plus
  | minus
deriving DecidableEq

def Sign.char : Sign → Char
  | .not => '!'
  | .plus => '+'
  | .minus => '-'

mutual

/-- The text of an expression, by its parts. -/
inductive Phrase where
  | operand (o : Operand)
  | binary (op : BinaryOp) (left right : Operand)
  | conditional (condition ifTrue ifFalse : Operand)

/-- What binds closer than operators with blanks around them. -/
inductive Operand where
  | mk (signs : List Sign) (head : Head) (links : List Link)

inductive Head where
  | token (t : Token)
  | nested (p : Phrase)

inductive Link where
  | member (x : Name)
  | index (p : Phrase)
  | call (method : Name) (args : List Phrase)

end

mutual

def Phrase.text : Phrase → List Char
  | .operand o => o.text
  | .binary op left right => left.text ++ ' ' :: op.symbol.toList ++ ' ' :: right.text
  | .conditional condition ifTrue ifFalse =>
    condition.text ++ [' ', '?', ' '] ++ ifTrue.text ++ [' ', ':', ' '] ++ ifFalse.text

def Operand.text : Operand → List Char
  | .mk signs head links => signs.map Sign.char ++ head.text ++ Link.texts links

def Head.text : Head → List Char
  | .token t => t.1
  | .nested p => '(' :: p.text ++ [')']

def Link.text : Link → List Char
  | .member x => '.' :: x.1.toList
  | .index p => '[' :: p.text ++ [']']
  | .call method args => '.' :: method.1.toList ++ '(' :: Phrase.textArgs args ++ [')']

def Link.texts : List Link → List Char
  | [] => []
  | link :: rest => link.text ++ Link.texts rest

def Phrase.textArgs : List Phrase → List Char
  | [] => []
  | p :: rest => p.text ++ Phrase.textMore rest

/-- The arguments after the first. -/
def Phrase.textMore : List Phrase → List Char
  | [] => []
  | p :: rest => ',' :: ' ' :: p.text ++ Phrase.textMore rest

end

/-! ## What the pieces start with and what follows them -/

theorem Name.word (x : Name) : ∀ c ∈ x.1.toList, IsWordChar c := by
  obtain ⟨x, h⟩ := x
  unfold isIdentifier at h
  split at h
  · cases h
  · next c cs heq =>
    simp only [Bool.and_eq_true, Bool.or_eq_true, decide_eq_true_eq, List.all_eq_true] at h
    intro d hd
    rw [heq, List.mem_cons] at hd
    rcases hd with rfl | hd
    · rcases h.1 with (ha | hu) | hdollar
      · exact .inl (by simp [Char.isAlphanum, ha])
      · exact .inr (.inl hu)
      · exact .inr (.inr hdollar)
    · rcases h.2 d hd with (ha | hu) | hdollar
      · exact .inl ha
      · exact .inr (.inl hu)
      · exact .inr (.inr hdollar)

theorem not_isDigit_of_isAlpha {c : Char} (h : c.isAlpha) : ¬c.isDigit := by
  simp only [Char.isAlpha, Char.isUpper, Char.isLower, Char.isDigit, Bool.or_eq_true, Bool.and_eq_true,
    decide_eq_true_eq, UInt32.le_iff_toNat_le, ge_iff_le] at h ⊢
  have : 'A'.val.toNat = 65 := rfl
  have : 'a'.val.toNat = 97 := rfl
  have : '9'.val.toNat = 57 := rfl
  omega

theorem Name.head (x : Name) : ∃ c cs, x.1.toList = c :: cs ∧ ¬c.isDigit := by
  obtain ⟨x, h⟩ := x
  unfold isIdentifier at h
  split at h
  · cases h
  · next c cs heq =>
    simp only [Bool.and_eq_true, Bool.or_eq_true, decide_eq_true_eq] at h
    refine ⟨c, cs, heq, ?_⟩
    rcases h.1 with (ha | rfl) | rfl
    · exact not_isDigit_of_isAlpha ha
    · decide
    · decide

theorem isToken_of_isIdentifier {x : String} (h : isIdentifier x) : IsToken x.toList := by
  obtain ⟨c, cs, hc, -⟩ := Name.head ⟨x, h⟩
  exact .word (by simp [hc]) (Name.word ⟨x, h⟩)

/-- What may follow a whole phrase. -/
def EndsPhrase (rest : List Char) : Prop := ∀ c ∈ rest.head?, c ∈ [')', ']', ',']

/-- What may follow an operand: what may follow a phrase, and a blank. -/
def EndsOperand (rest : List Char) : Prop := ∀ c ∈ rest.head?, c ∈ [')', ']', ',', ' ']

theorem EndsPhrase.operand {rest : List Char} (h : EndsPhrase rest) : EndsOperand rest :=
  fun c hc => List.mem_append_left [' '] (h c hc)

theorem endsOperand_blank (rest : List Char) : EndsOperand (' ' :: rest) := head_cons (by simp) rest

theorem not_endsPhrase_blank {rest : List Char} : ¬EndsPhrase (' ' :: rest) := fun h => by
  have := h ' ' rfl
  simp at this

/-- After the links of an operand stands what follows the operand; before it stands a dot or a bracket. -/
theorem Link.head_texts (links : List Link) {rest : List Char} (hr : EndsOperand rest) :
    ∀ c ∈ (Link.texts links ++ rest).head?, c ∈ ['.', '[', ')', ']', ',', ' '] := by
  cases links with
  | nil =>
    intro c hc
    have := hr c hc
    simp_all
  | cons link links => cases link <;> exact head_cons (by decide) _

theorem Link.endsToken (links : List Link) {rest : List Char} (hr : EndsOperand rest) :
    EndsToken (Link.texts links ++ rest) where
  word c hc := by
    have hstop := Link.head_texts links hr c hc
    fin_cases hstop <;> decide
  fraction c more h := by
    cases links with
    | nil =>
      have := hr '.' (by simp_all [Link.texts])
      simp at this
    | cons link links =>
      cases link with
      | index p => simp [Link.texts, Link.text] at h
      | member x =>
        obtain ⟨d, ds, hx, hd⟩ := x.head
        simp only [Link.texts, Link.text, hx, List.cons_append, List.cons.injEq, true_and] at h
        rwa [← h.1]
      | call method args =>
        obtain ⟨d, ds, hx, hd⟩ := method.head
        simp only [Link.texts, Link.text, hx, List.cons_append, List.cons.injEq, true_and] at h
        rwa [← h.1]

/-- The characters that an operand may start with after its signs. -/
def StartsHead (c : Char) : Prop := IsWordChar c ∨ c = '"' ∨ c = '('

instance : DecidablePred StartsHead := fun _ => inferInstanceAs (Decidable (_ ∨ _))

theorem IsToken.head {cs : List Char} (h : IsToken cs) : ∃ c ds, cs = c :: ds ∧ (IsWordChar c ∨ c = '"') := by
  cases h with
  | word hne hcs | decimal hne hcs =>
    obtain ⟨c, cs, rfl⟩ := List.exists_cons_of_ne_nil hne
    exact ⟨c, _, rfl, .inl (hcs c (by simp))⟩
  | quoted => exact ⟨'"', _, rfl, .inr rfl⟩

theorem Head.text_head (head : Head) : ∃ c cs, head.text = c :: cs ∧ StartsHead c := by
  cases head with
  | nested p => exact ⟨'(', _, rfl, .inr (.inr rfl)⟩
  | token t =>
    obtain ⟨c, cs, hc, hstart⟩ := t.2.head
    exact ⟨c, cs, hc, hstart.imp_right .inl⟩

theorem Operand.text_head (o : Operand) : ∃ c cs, o.text = c :: cs ∧ c ≠ ')' := by
  obtain ⟨signs, head, links⟩ := o
  cases signs with
  | nil =>
    obtain ⟨c, cs, hc, hstart⟩ := head.text_head
    refine ⟨c, cs ++ Link.texts links, by simp [Operand.text, hc], ?_⟩
    rintro rfl
    revert hstart
    simp [StartsHead, IsWordChar]
  | cons sign signs =>
    exact ⟨sign.char, _, rfl, by cases sign <;> decide⟩

theorem Phrase.text_head (p : Phrase) : ∃ c cs, p.text = c :: cs ∧ c ≠ ')' := by
  cases p with
  | operand o => exact o.text_head
  | binary op left right =>
    obtain ⟨c, cs, hc, hne⟩ := left.text_head
    exact ⟨c, _, by rw [Phrase.text, hc]; rfl, hne⟩
  | conditional condition ifTrue ifFalse =>
    obtain ⟨c, cs, hc, hne⟩ := condition.text_head
    exact ⟨c, _, by rw [Phrase.text, hc]; rfl, hne⟩

/-! ## A text has one phrase -/

/-- The character of a sign is not the start of anything else. -/
theorem Sign.append_inj {signs signs' : List Sign} {rest rest' : List Char} (hr : ∀ c ∈ rest.head?, StartsHead c)
    (hr' : ∀ c ∈ rest'.head?, StartsHead c) (h : signs.map Sign.char ++ rest = signs'.map Sign.char ++ rest') :
    signs = signs' ∧ rest = rest' := by
  have hapart (c : Char) (hc : StartsHead c) : c ∉ ['!', '+', '-'] := by
    intro hmem
    fin_cases hmem <;> revert hc <;> decide
  have hsigns (signs : List Sign) : ∀ c ∈ signs.map Sign.char, c ∈ ['!', '+', '-'] := by
    simp only [List.mem_map]
    rintro _ ⟨sign, -, rfl⟩
    cases sign <;> simp [Sign.char]
  obtain ⟨hmap, hrest⟩ := run_append_inj (hsigns signs) (hsigns signs') (fun c hc => hapart c (hr c hc))
    (fun c hc => hapart c (hr' c hc)) h
  refine ⟨List.map_injective_iff.2 ?_ hmap, hrest⟩
  rintro (_ | _ | _) (_ | _ | _) hchar <;> first | rfl | cases hchar

/-- A symbol with blanks around it ends at the second blank. -/
theorem symbol_append_inj {cs ds rest rest' : List Char} (hcs : ' ' ∉ cs) (hds : ' ' ∉ ds)
    (h : cs ++ ' ' :: rest = ds ++ ' ' :: rest') : cs = ds ∧ rest = rest' := by
  have hne (cs : List Char) (hcs : ' ' ∉ cs) : ∀ c ∈ cs, c ≠ ' ' := fun c hc heq => hcs (heq ▸ hc)
  obtain ⟨rfl, hrest⟩ := run_append_inj (hne cs hcs) (hne ds hds) (head_cons (by simp) _) (head_cons (by simp) _) h
  exact ⟨rfl, (List.cons.inj hrest).2⟩

theorem BinaryOp.blank_not_mem_symbol (op : BinaryOp) : ' ' ∉ op.symbol.toList := by
  rcases op with op | op | op | op <;> cases op <;> decide

theorem BinaryOp.symbol_inj {op op' : BinaryOp} (h : op.symbol = op'.symbol) : op = op' := by
  have hof := BinaryOp.ofSymbol?_symbol op
  rw [h, BinaryOp.ofSymbol?_symbol] at hof
  exact (Option.some.inj hof).symm

/-- No operator is taken for the first mark of a conditional. -/
theorem BinaryOp.symbol_append_ne (op : BinaryOp) (rest more : List Char) :
    op.symbol.toList ++ ' ' :: rest ≠ '?' :: ' ' :: more := by
  rcases op with op | op | op | op <;> cases op <;> exact fun h => by cases h

theorem token_append_ne_nested (t : Token) (rest more : List Char) : t.1 ++ rest ≠ '(' :: more := by
  intro h
  obtain ⟨c, cs, hc, hstart⟩ := t.2.head
  rw [hc] at h
  rw [(List.cons.inj h).1] at hstart
  revert hstart
  decide

theorem textArgs_append_ne_close (p : Phrase) (args : List Phrase) (rest more : List Char) :
    Phrase.textArgs (p :: args) ++ rest ≠ ')' :: more := by
  intro h
  obtain ⟨c, cs, hc, hne⟩ := p.text_head
  rw [Phrase.textArgs, hc] at h
  exact hne (List.cons.inj h).1

theorem member_append_ne_call (x m : Name) (links : List Link) {rest : List Char} (more : List Char)
    (hr : EndsOperand rest) : x.1.toList ++ (Link.texts links ++ rest) ≠ m.1.toList ++ '(' :: more := by
  intro h
  obtain ⟨-, hrest⟩ := run_append_inj x.word m.word (Link.endsToken links hr).word (head_cons (by decide) _) h
  have hhead := Link.head_texts links hr '(' (by simp [hrest])
  simp at hhead

theorem Phrase.endsPhrase_textMore (args : List Phrase) (rest : List Char) :
    EndsPhrase (Phrase.textMore args ++ ')' :: rest) := by
  cases args <;> exact head_cons (by simp) _

mutual

theorem Phrase.text_append_inj : ∀ (p q : Phrase) {rest rest' : List Char}, EndsPhrase rest → EndsPhrase rest' →
    p.text ++ rest = q.text ++ rest' → p = q ∧ rest = rest'
  | .operand o, q, _, _, hr, hr', h => by
    cases q with
    | operand o' =>
      obtain ⟨rfl, hrest⟩ := Operand.text_append_inj o o' hr.operand hr'.operand h
      exact ⟨rfl, hrest⟩
    | binary op left right =>
      simp only [Phrase.text, List.append_assoc, List.cons_append] at h
      obtain ⟨-, rfl⟩ := Operand.text_append_inj o left hr.operand (endsOperand_blank _) h
      exact absurd hr not_endsPhrase_blank
    | conditional condition ifTrue ifFalse =>
      simp only [Phrase.text, List.append_assoc, List.cons_append] at h
      obtain ⟨-, rfl⟩ := Operand.text_append_inj o condition hr.operand (endsOperand_blank _) h
      exact absurd hr not_endsPhrase_blank
  | .binary op left right, q, _, _, hr, hr', h => by
    simp only [Phrase.text, List.append_assoc, List.cons_append] at h
    cases q with
    | operand o' =>
      obtain ⟨-, rfl⟩ := Operand.text_append_inj left o' (endsOperand_blank _) hr'.operand h
      exact absurd hr' not_endsPhrase_blank
    | binary op' left' right' =>
      simp only [Phrase.text, List.append_assoc, List.cons_append] at h
      obtain ⟨rfl, h₁⟩ := Operand.text_append_inj left left' (endsOperand_blank _) (endsOperand_blank _) h
      obtain ⟨hop, h₂⟩ := symbol_append_inj op.blank_not_mem_symbol op'.blank_not_mem_symbol (List.cons.inj h₁).2
      obtain rfl := BinaryOp.symbol_inj (String.toList_inj.1 hop)
      obtain ⟨rfl, hrest⟩ := Operand.text_append_inj right right' hr.operand hr'.operand h₂
      exact ⟨rfl, hrest⟩
    | conditional condition ifTrue ifFalse =>
      simp only [Phrase.text, List.append_assoc, List.cons_append] at h
      obtain ⟨-, h₁⟩ := Operand.text_append_inj left condition (endsOperand_blank _) (endsOperand_blank _) h
      exact absurd (List.cons.inj h₁).2 (op.symbol_append_ne _ _)
  | .conditional condition ifTrue ifFalse, q, _, _, hr, hr', h => by
    simp only [Phrase.text, List.append_assoc, List.cons_append, List.nil_append] at h
    cases q with
    | operand o' =>
      obtain ⟨-, rfl⟩ := Operand.text_append_inj condition o' (endsOperand_blank _) hr'.operand h
      exact absurd hr' not_endsPhrase_blank
    | binary op left right =>
      simp only [Phrase.text, List.append_assoc, List.cons_append] at h
      obtain ⟨-, h₁⟩ := Operand.text_append_inj condition left (endsOperand_blank _) (endsOperand_blank _) h
      exact absurd (List.cons.inj h₁).2.symm (op.symbol_append_ne _ _)
    | conditional condition' ifTrue' ifFalse' =>
      simp only [Phrase.text, List.append_assoc, List.cons_append, List.nil_append] at h
      obtain ⟨rfl, h₁⟩ := Operand.text_append_inj condition condition' (endsOperand_blank _) (endsOperand_blank _) h
      simp only [List.cons.injEq, true_and] at h₁
      obtain ⟨rfl, h₂⟩ := Operand.text_append_inj ifTrue ifTrue' (endsOperand_blank _) (endsOperand_blank _) h₁
      simp only [List.cons.injEq, true_and] at h₂
      obtain ⟨rfl, hrest⟩ := Operand.text_append_inj ifFalse ifFalse' hr.operand hr'.operand h₂
      exact ⟨rfl, hrest⟩
termination_by structural x => x

theorem Operand.text_append_inj : ∀ (o o' : Operand) {rest rest' : List Char}, EndsOperand rest → EndsOperand rest' →
    o.text ++ rest = o'.text ++ rest' → o = o' ∧ rest = rest'
  | .mk signs head links, .mk signs' head' links', _, _, hr, hr', h => by
    have hstart (head : Head) (more : List Char) : ∀ c ∈ (head.text ++ more).head?, StartsHead c := by
      obtain ⟨c, cs, hc, hstart⟩ := head.text_head
      rw [hc]
      exact head_cons hstart _
    simp only [Operand.text, List.append_assoc] at h
    obtain ⟨rfl, h₁⟩ := Sign.append_inj (hstart head _) (hstart head' _) h
    obtain ⟨rfl, h₂⟩ := Head.text_append_inj head head' (Link.endsToken links hr) (Link.endsToken links' hr') h₁
    obtain ⟨rfl, hrest⟩ := Link.texts_append_inj links links' hr hr' h₂
    exact ⟨rfl, hrest⟩
termination_by structural x => x

theorem Head.text_append_inj : ∀ (head head' : Head) {rest rest' : List Char}, EndsToken rest → EndsToken rest' →
    head.text ++ rest = head'.text ++ rest' → head = head' ∧ rest = rest'
  | .token t, .token t', _, _, hr, hr', h => by
    obtain ⟨heq, hrest⟩ := t.2.append_inj t'.2 hr hr' h
    obtain rfl := Subtype.ext heq
    exact ⟨rfl, hrest⟩
  | .token t, .nested _, _, _, _, _, h => absurd h (token_append_ne_nested t _ _)
  | .nested _, .token t, _, _, _, _, h => absurd h.symm (token_append_ne_nested t _ _)
  | .nested p, .nested q, _, _, _, _, h => by
    simp only [Head.text, List.cons_append, List.append_assoc, List.nil_append, List.cons.injEq, true_and] at h
    obtain ⟨rfl, h₁⟩ := Phrase.text_append_inj p q (head_cons (by simp) _) (head_cons (by simp) _) h
    exact ⟨rfl, (List.cons.inj h₁).2⟩
termination_by structural x => x

theorem Link.texts_append_inj : ∀ (links links' : List Link) {rest rest' : List Char}, EndsOperand rest →
    EndsOperand rest' → Link.texts links ++ rest = Link.texts links' ++ rest' → links = links' ∧ rest = rest'
  | [], [], _, _, _, _, h => ⟨rfl, h⟩
  | [], link :: _, _, _, hr, _, h => by
    obtain rfl := h
    cases link <;> simp [Link.texts, Link.text, EndsOperand] at hr
  | link :: _, [], _, _, _, hr', h => by
    obtain rfl := h
    cases link <;> simp [Link.texts, Link.text, EndsOperand] at hr'
  | .member x :: links, .member y :: links', _, _, hr, hr', h => by
    simp only [Link.texts, Link.text, List.cons_append, List.append_assoc, List.cons.injEq, true_and] at h
    obtain ⟨hx, h₁⟩ := word_append_inj x.word y.word (Link.endsToken links hr) (Link.endsToken links' hr') h
    obtain rfl := Subtype.ext (String.toList_inj.1 hx)
    obtain ⟨rfl, hrest⟩ := Link.texts_append_inj links links' hr hr' h₁
    exact ⟨rfl, hrest⟩
  | .index p :: links, .index q :: links', _, _, hr, hr', h => by
    simp only [Link.texts, Link.text, List.cons_append, List.append_assoc, List.nil_append, List.cons.injEq,
      true_and] at h
    obtain ⟨rfl, h₁⟩ := Phrase.text_append_inj p q (head_cons (by simp) _) (head_cons (by simp) _) h
    obtain ⟨rfl, hrest⟩ := Link.texts_append_inj links links' hr hr' (List.cons.inj h₁).2
    exact ⟨rfl, hrest⟩
  | .call m args :: links, .call m' args' :: links', _, _, hr, hr', h => by
    simp only [Link.texts, Link.text, List.cons_append, List.append_assoc, List.nil_append, List.cons.injEq,
      true_and] at h
    obtain ⟨hm, h₁⟩ := run_append_inj m.word m'.word (head_cons (by decide) _) (head_cons (by decide) _) h
    obtain rfl := Subtype.ext (String.toList_inj.1 hm)
    obtain ⟨rfl, h₂⟩ := Phrase.textArgs_append_inj args args' (List.cons.inj h₁).2
    obtain ⟨rfl, hrest⟩ := Link.texts_append_inj links links' hr hr' h₂
    exact ⟨rfl, hrest⟩
  | .member x :: links, .call m _ :: _, _, _, hr, _, h => by
    simp only [Link.texts, Link.text, List.cons_append, List.append_assoc, List.cons.injEq, true_and] at h
    exact absurd h (member_append_ne_call x m links _ hr)
  | .call m _ :: _, .member x :: links', _, _, _, hr', h => by
    simp only [Link.texts, Link.text, List.cons_append, List.append_assoc, List.cons.injEq, true_and] at h
    exact absurd h.symm (member_append_ne_call x m links' _ hr')
  | .index _ :: _, .member _ :: _, _, _, _, _, h => by simp [Link.texts, Link.text] at h
  | .index _ :: _, .call _ _ :: _, _, _, _, _, h => by simp [Link.texts, Link.text] at h
  | .member _ :: _, .index _ :: _, _, _, _, _, h => by simp [Link.texts, Link.text] at h
  | .call _ _ :: _, .index _ :: _, _, _, _, _, h => by simp [Link.texts, Link.text] at h
termination_by structural x => x

theorem Phrase.textArgs_append_inj : ∀ (args args' : List Phrase) {rest rest' : List Char},
    Phrase.textArgs args ++ ')' :: rest = Phrase.textArgs args' ++ ')' :: rest' → args = args' ∧ rest = rest'
  | [], [], _, _, h => ⟨rfl, (List.cons.inj h).2⟩
  | [], q :: args', _, _, h => absurd h.symm (textArgs_append_ne_close q args' _ _)
  | p :: args, [], _, _, h => absurd h (textArgs_append_ne_close p args _ _)
  | p :: args, q :: args', rest, rest', h => by
    simp only [Phrase.textArgs, List.append_assoc] at h
    obtain ⟨rfl, h₁⟩ := Phrase.text_append_inj p q (Phrase.endsPhrase_textMore args rest)
      (Phrase.endsPhrase_textMore args' rest') h
    obtain ⟨rfl, hrest⟩ := Phrase.textMore_append_inj args args' h₁
    exact ⟨rfl, hrest⟩
termination_by structural x => x

theorem Phrase.textMore_append_inj : ∀ (args args' : List Phrase) {rest rest' : List Char},
    Phrase.textMore args ++ ')' :: rest = Phrase.textMore args' ++ ')' :: rest' → args = args' ∧ rest = rest'
  | [], [], _, _, h => ⟨rfl, (List.cons.inj h).2⟩
  | [], _ :: _, _, _, h => by simp [Phrase.textMore] at h
  | _ :: _, [], _, _, h => by simp [Phrase.textMore] at h
  | p :: args, q :: args', rest, rest', h => by
    simp only [Phrase.textMore, List.cons_append, List.append_assoc, List.cons.injEq, true_and] at h
    obtain ⟨rfl, h₁⟩ := Phrase.text_append_inj p q (Phrase.endsPhrase_textMore args rest)
      (Phrase.endsPhrase_textMore args' rest') h
    obtain ⟨rfl, hrest⟩ := Phrase.textMore_append_inj args args' h₁
    exact ⟨rfl, hrest⟩
termination_by structural x => x

end

/-- Phrases with one text are one phrase. -/
theorem Phrase.text_inj {p q : Phrase} (h : p.text = q.text) : p = q := by
  have hends : EndsPhrase [] := by simp [EndsPhrase]
  exact (Phrase.text_append_inj p q hends hends (congrArg (· ++ []) h)).1

/-! ## Building phrases -/

/-- The signs that a prefix operator is written with. -/
def PrefixOp.signs : PrefixOp → List Sign
  | .unary .not => [.not]
  | .unary .negate => [.minus]
  | .unary .plus => [.plus]
  | .update .increment => [.plus, .plus]
  | .update .decrement => [.minus, .minus]

theorem PrefixOp.map_signs (op : PrefixOp) : op.signs.map Sign.char = op.symbol.toList := by
  rcases op with op | op <;> cases op <;> decide

def Operand.ofToken (t : Token) : Operand := .mk [] (.token t) []

/-- With more signs in front. -/
def Operand.signed (signs : List Sign) : Operand → Operand
  | .mk more head links => .mk (signs ++ more) head links

/-- With one more link at the end. -/
def Operand.linked (link : Link) : Operand → Operand
  | .mk signs head links => .mk signs head (links ++ [link])

/-- A phrase with operators is put in parentheses. -/
def Phrase.asOperand : Phrase → Operand
  | .operand o => o
  | p => .mk [] (.nested p) []

@[simp] theorem Operand.text_ofToken (t : Token) : (Operand.ofToken t).text = t.1 := by
  simp [Operand.ofToken, Operand.text, Head.text, Link.texts]

@[simp] theorem Operand.text_signed (signs : List Sign) (o : Operand) :
    (o.signed signs).text = signs.map Sign.char ++ o.text := by
  obtain ⟨more, head, links⟩ := o
  simp [Operand.signed, Operand.text]

theorem Link.texts_append (a b : List Link) : Link.texts (a ++ b) = Link.texts a ++ Link.texts b := by
  induction a with
  | nil => rfl
  | cons link a ih => simp [Link.texts, ih]

@[simp] theorem Operand.text_linked (link : Link) (o : Operand) : (o.linked link).text = o.text ++ link.text := by
  obtain ⟨signs, head, links⟩ := o
  simp [Operand.linked, Operand.text, Link.texts_append, Link.texts]

def Phrase.isCompound : Phrase → Bool
  | .operand _ => false
  | _ => true

/-- Operands are put in parentheses as they are in texts. -/
theorem Phrase.text_asOperand {p : Phrase} {s : String} (h : p.text = s.toList) :
    p.asOperand.text = (parenthesise p.isCompound s).toList := by
  cases p with
  | operand o => exact h
  | binary | conditional =>
    simp [Phrase.asOperand, Operand.text, Head.text, Link.texts, Phrase.isCompound, parenthesise, h]

theorem Phrase.textArgs_eq (args : List Phrase) :
    Phrase.textArgs args = [',', ' '].intercalate (args.map Phrase.text) := by
  induction args with
  | nil => rfl
  | cons p rest ih =>
    cases rest with
    | nil => simp [Phrase.textArgs, Phrase.textMore]
    | cons q rest =>
      rw [List.map_cons, List.map_cons, List.intercalate_cons_cons, ← List.map_cons, ← ih]
      simp [Phrase.textArgs, Phrase.textMore]

theorem Phrase.textArgs_toList {args : List Phrase} {texts : List String}
    (h : args.map Phrase.text = texts.map String.toList) :
    Phrase.textArgs args = (", ".intercalate texts).toList := by
  rw [Phrase.textArgs_eq, String.toList_intercalate, h]
  rfl

end Stencil
