import Mathlib
import Stencil.Literal
/-!
# String literals

The grammar of string literals: between two equal quotes stands a sequence of items, each denoting one
character. An item is a character, a backslash and a letter, or `\u` and the four hexadecimal digits of a
code point (`Denotes`). Decoding follows this grammar, but it also takes a plus for the first of the
four digits (`DenotesSigned`). `decode_reads_grammar` says that this is the whole difference.
-/

namespace Stencil.Literal

/-! ## Items -/

/-- The letters that may follow a backslash, with what they stand for there. -/
def letters : List (Char × Char) :=
  [('n', '\n'), ('t', '\t'), ('r', '\r'), ('0', '\x00'), ('\\', '\\'), ('"', '"'), ('\'', '\'')]

/-- `c` is the hexadecimal digit for `v`, in either case. -/
def HexDigit (c : Char) (v : Nat) : Prop :=
  "0123456789abcdef".toList[v]? = some c ∨ "0123456789ABCDEF".toList[v]? = some c

instance (c : Char) (v : Nat) : Decidable (HexDigit c v) := inferInstanceAs (Decidable (_ ∨ _))

/-- The items between two quotes, with the character that each of them denotes. -/
inductive Denotes (quote : Char) : List Char → Char → Prop
  | plain {c : Char} (hq : c ≠ quote) (hb : c ≠ '\\') : Denotes quote [c] c
  | letter {l c : Char} (h : (l, c) ∈ letters) : Denotes quote ['\\', l] c
  | code {a b c d e : Char} {w x y z : Nat} (ha : HexDigit a w) (hb : HexDigit b x) (hc : HexDigit c y)
      (hd : HexDigit d z) (he : e.toNat = 4096 * w + 256 * x + 16 * y + z) :
      Denotes quote ['\\', 'u', a, b, c, d] e

/-- Code points of three digits, with a plus in front of them. -/
inductive DenotesSigned : List Char → Char → Prop
  | mk {b c d e : Char} {x y z : Nat} (hb : HexDigit b x) (hc : HexDigit c y) (hd : HexDigit d z)
      (he : e.toNat = 256 * x + 16 * y + z) : DenotesSigned ['\\', 'u', '+', b, c, d] e

/-- Items of either kind. -/
def DenotesLoosely (quote : Char) (text : List Char) (c : Char) : Prop :=
  Denotes quote text c ∨ DenotesSigned text c

/-- `cs` is a sequence of items, and `s` is what they denote. -/
def Reads (item : List Char → Char → Prop) (cs s : List Char) : Prop :=
  ∃ items : List (List Char × Char),
    (∀ i ∈ items, item i.1 i.2) ∧ cs = items.flatMap Prod.fst ∧ s = items.map Prod.snd

/-- A token that is a quote, items and the same quote. -/
def Quoted (item : List Char → Char → Prop) (quote : Char) (token s : List Char) : Prop :=
  ∃ body, token = quote :: body ++ [quote] ∧ Reads item body s

/-! ## Hexadecimal digits -/

/-- A property of the characters in a range is one of finitely many code points. -/
theorem char_of_range {P : Char → Prop} {lo hi : Nat} (h : ∀ n, lo ≤ n → n ≤ hi → P (.ofNat n)) {c : Char}
    (hlo : lo ≤ c.toNat) (hhi : c.toNat ≤ hi) : P c := by
  simpa using h c.toNat hlo hhi

theorem hexDigit?_eq_some_iff {c : Char} {v : Nat} : hexDigit? c = some v ↔ HexDigit c v := by
  constructor
  · intro h
    unfold hexDigit? at h
    split_ifs at h with hd hl hu
    · obtain rfl := Option.some.inj h
      simp only [Char.isDigit, Bool.and_eq_true, decide_eq_true_eq] at hd
      exact char_of_range (P := fun c => HexDigit c (c.toNat - '0'.toNat)) (by decide) hd.1 hd.2
    · obtain rfl := Option.some.inj h
      exact char_of_range (P := fun c => HexDigit c (c.toNat - 'a'.toNat + 10)) (by decide) hl.1 hl.2
    · obtain rfl := Option.some.inj h
      exact char_of_range (P := fun c => HexDigit c (c.toNat - 'A'.toNat + 10)) (by decide) hu.1 hu.2
  · rintro (h | h)
    · have hlt : v < 16 := (List.getElem?_eq_some_iff.1 h).1
      interval_cases v <;> cases h <;> decide
    · have hlt : v < 16 := (List.getElem?_eq_some_iff.1 h).1
      interval_cases v <;> cases h <;> decide

theorem HexDigit.ne_plus {c : Char} {v : Nat} (h : HexDigit c v) : c ≠ '+' := by
  rintro rfl
  have : hexDigit? '+' = none := by decide
  rw [hexDigit?_eq_some_iff.2 h] at this
  cases this

/-! ## Code points -/

theorem toChar_eq_some_iff {n : Nat} {e : Char} :
    (if h : n.isValidChar then some (Char.ofNatAux n h) else none) = some e ↔ e.toNat = n := by
  constructor
  · intro h
    split_ifs at h with hn
    obtain rfl := Option.some.inj h
    rfl
  · rintro rfl
    have hvalid : e.toNat.isValidChar := e.valid
    rw [dif_pos hvalid]
    rfl

/-- The number that hexadecimal digits write. -/
def hexNumber? (digits : List Char) : Option Nat := do
  let values ← digits.mapM hexDigit?
  return values.foldl (16 * · + ·) 0

theorem readHex?_plus {digits : List Char} (h : digits ≠ []) :
    readHex? ('+' :: digits) = hexNumber? digits := by
  simp [readHex?, hexNumber?, h]

theorem readHex?_of_ne_plus {a : Char} (h : a ≠ '+') (cs : List Char) :
    readHex? (a :: cs) = hexNumber? (a :: cs) := by
  unfold readHex?
  split
  · next heq => exact absurd (List.cons.inj heq).1 h
  · rfl

theorem mapM_hexDigit?_eq_some_iff {digits : List Char} {values : List Nat} :
    digits.mapM hexDigit? = some values ↔ List.Forall₂ HexDigit digits values := by
  induction digits generalizing values with
  | nil => simp [eq_comm]
  | cons d rest ih =>
    simp only [List.mapM_cons, Option.bind_eq_bind, Option.bind_eq_some_iff, hexDigit?_eq_some_iff, ih,
      Option.pure_def, Option.some.injEq, List.forall₂_cons_left_iff, @eq_comm _ _ values, exists_and_left]

theorem hexNumber?_eq_some_iff {digits : List Char} {n : Nat} :
    hexNumber? digits = some n ↔
      ∃ values, List.Forall₂ HexDigit digits values ∧ values.foldl (16 * · + ·) 0 = n := by
  simp only [hexNumber?, Option.bind_eq_bind, Option.bind_eq_some_iff, mapM_hexDigit?_eq_some_iff,
    Option.pure_def, Option.some.injEq]

/-- Four characters after `\u` stand for a character if they are its digits, or a plus and its digits. -/
theorem scalar?_eq_some_iff {quote a b c d e : Char} :
    scalar? [a, b, c, d] = some e ↔ DenotesLoosely quote ['\\', 'u', a, b, c, d] e := by
  have hscalar : scalar? [a, b, c, d] = some e ↔ readHex? [a, b, c, d] = some e.toNat := by
    simp only [scalar?, Option.bind_eq_bind, Option.bind_eq_some_iff, toChar_eq_some_iff]
    constructor
    · rintro ⟨n, hn, rfl⟩
      exact hn
    · exact fun h => ⟨_, h, rfl⟩
  rw [hscalar]
  by_cases ha : a = '+'
  · subst ha
    rw [readHex?_plus (by simp), hexNumber?_eq_some_iff]
    constructor
    · rintro ⟨values, hdigits, hn⟩
      obtain _ | ⟨hb, _ | ⟨hc, _ | ⟨hd, ⟨⟩⟩⟩⟩ := hdigits
      refine .inr (.mk hb hc hd ?_)
      simp only [List.foldl] at hn
      omega
    · rintro (h | h)
      · cases h with
        | code ha => exact absurd rfl ha.ne_plus
      · cases h with
        | mk hb hc hd he =>
          refine ⟨_, .cons hb (.cons hc (.cons hd .nil)), ?_⟩
          simp only [List.foldl]
          omega
  · rw [readHex?_of_ne_plus ha, hexNumber?_eq_some_iff]
    constructor
    · rintro ⟨values, hdigits, hn⟩
      obtain _ | ⟨ha, _ | ⟨hb, _ | ⟨hc, _ | ⟨hd, ⟨⟩⟩⟩⟩⟩ := hdigits
      refine .inl (.code ha hb hc hd ?_)
      simp only [List.foldl] at hn
      omega
    · rintro (h | h)
      · cases h with
        | code ha hb hc hd he =>
          refine ⟨_, .cons ha (.cons hb (.cons hc (.cons hd .nil))), ?_⟩
          simp only [List.foldl]
          omega
      · cases h with
        | mk => exact absurd rfl ha

/-! ## Reading items -/

theorem escape?_eq_some_iff {l c : Char} : escape? l = some c ↔ (l, c) ∈ letters := by
  unfold escape? letters
  constructor
  · intro h
    split_ifs at h with hn ht hr h0 hself
    all_goals obtain rfl := Option.some.inj h
    all_goals simp_all
  · intro h
    simp only [List.mem_cons, Prod.mk.injEq, List.not_mem_nil, or_false] at h
    rcases h with ⟨rfl, rfl⟩ | ⟨rfl, rfl⟩ | ⟨rfl, rfl⟩ | ⟨rfl, rfl⟩ | ⟨rfl, rfl⟩ | ⟨rfl, rfl⟩ | ⟨rfl, rfl⟩
    all_goals rfl

theorem ne_u_of_mem_letters {l c : Char} (h : (l, c) ∈ letters) : l ≠ 'u' := by
  rintro rfl
  simp [letters] at h

theorem unescape_plain {quote c : Char} (hq : c ≠ quote) (hb : c ≠ '\\') (token : String) (rest : List Char) :
    unescape quote token (c :: rest) = (unescape quote token rest).map (c :: ·) := by
  rw [unescape.eq_6 _ _ _ _ (by simp [hb]) (by simp [hb]) (by simp [hb]) (by simp [hb]), if_neg hq]
  cases unescape quote token rest <;> rfl

theorem unescape_letter {l c : Char} (h : (l, c) ∈ letters) (quote : Char) (token : String) (rest : List Char) :
    unescape quote token ('\\' :: l :: rest) = (unescape quote token rest).map (c :: ·) := by
  have hu := ne_u_of_mem_letters h
  rw [unescape.eq_5 _ _ _ _ (by simp [hu]) (by simp [hu])]
  simp only [escape?_eq_some_iff.2 h]
  cases unescape quote token rest <;> rfl

theorem unescape_code {quote a b c d e : Char} (h : DenotesLoosely quote ['\\', 'u', a, b, c, d] e)
    (token : String) (rest : List Char) :
    unescape quote token ('\\' :: 'u' :: a :: b :: c :: d :: rest) =
      (unescape quote token rest).map (e :: ·) := by
  rw [unescape.eq_3]
  simp only [scalar?_eq_some_iff.2 h]
  cases unescape quote token rest <;> rfl

theorem unescape_item {quote : Char} {text : List Char} {c : Char} (h : DenotesLoosely quote text c)
    (token : String) (rest : List Char) :
    unescape quote token (text ++ rest) = (unescape quote token rest).map (c :: ·) := by
  rcases id h with hstrict | hsigned
  · cases hstrict with
    | plain hq hb => exact unescape_plain hq hb token rest
    | letter hl => exact unescape_letter hl quote token rest
    | code => exact unescape_code h token rest
  · cases hsigned with
    | mk => exact unescape_code h token rest

theorem Reads.nil {item : List Char → Char → Prop} : Reads item [] [] := ⟨[], by simp, rfl, rfl⟩

theorem Reads.cons {item : List Char → Char → Prop} {text cs s : List Char} {c : Char} (h : item text c)
    (hrest : Reads item cs s) : Reads item (text ++ cs) (c :: s) := by
  obtain ⟨items, hitems, rfl, rfl⟩ := hrest
  exact ⟨(text, c) :: items, List.forall_mem_cons.2 ⟨h, hitems⟩, rfl, rfl⟩

theorem unescape_of_reads {quote : Char} {cs s : List Char} (h : Reads (DenotesLoosely quote) cs s)
    (token : String) : unescape quote token cs = .ok s := by
  obtain ⟨items, hitems, rfl, rfl⟩ := h
  induction items with
  | nil => rfl
  | cons i rest ih =>
    rw [List.forall_mem_cons] at hitems
    rw [List.flatMap_cons, unescape_item hitems.1, ih hitems.2]
    rfl

theorem map_cons_eq_ok {c : Char} {result : Except LiteralFault (List Char)} {s : List Char}
    (h : (do return c :: (← result)) = Except.ok s) : ∃ t, result = .ok t ∧ s = c :: t := by
  cases result with
  | error => cases h
  | ok t => exact ⟨t, rfl, (Except.ok.inj h).symm⟩

theorem reads_of_unescape {quote : Char} {token : String} {cs s : List Char}
    (h : unescape quote token cs = .ok s) : Reads (DenotesLoosely quote) cs s := by
  fun_induction unescape quote token cs generalizing s with
  | case1 =>
    obtain rfl := Except.ok.inj h
    exact .nil
  | case2 | case4 | case5 | case7 | case8 => cases h
  | case3 a b c d rest e he ih =>
    obtain ⟨t, ht, rfl⟩ := map_cons_eq_ok h
    have hitem : DenotesLoosely quote ['\\', 'u', a, b, c, d] e := scalar?_eq_some_iff.1 he
    exact Reads.cons hitem (ih ht)
  | case6 l rest _ _ e he ih =>
    obtain ⟨t, ht, rfl⟩ := map_cons_eq_ok h
    have hitem : DenotesLoosely quote ['\\', l] e := .inl (.letter (escape?_eq_some_iff.1 he))
    exact Reads.cons hitem (ih ht)
  | case9 c rest hlone _ _ hpair _ hq =>
    rename_i ih
    obtain ⟨t, ht, rfl⟩ := map_cons_eq_ok h
    have hb : c ≠ '\\' := by
      intro hc
      cases rest with
      | nil => exact hlone hc rfl
      | cons d ds => exact hpair d ds hc rfl
    have hitem : DenotesLoosely quote [c] c := .inl (.plain hq hb)
    exact Reads.cons hitem (ih ht)

/-! ## Tokens -/

/-- Tokens that do not start like a keyword are strings or numbers. -/
theorem decode_of_head {token : String} {c : Char} {rest : List Char}
    (hc : c ≠ 't' ∧ c ≠ 'f' ∧ c ≠ 'n' ∧ c ≠ 'u') (h : Text.trim token.toList = c :: rest) :
    decode token =
      if c = '"' ∨ c = '\'' then decodeString c (.ofList (c :: rest)) rest else decodeNumber (c :: rest) := by
  have hword : ∀ w : String, w.toList.head? ≠ some c → String.ofList (c :: rest) ≠ w := by
    rintro w hw rfl
    simp at hw
  obtain ⟨ht, hf, hn, hu⟩ := hc
  unfold decode
  simp only [h]
  rw [if_neg (hword "true" (by simpa using ht.symm)), if_neg (hword "false" (by simpa using hf.symm)),
    if_neg (hword "null" (by simpa using hn.symm)), if_neg (hword "undefined" (by simpa using hu.symm))]

theorem decode_of_quote {token : String} {quote : Char} {rest : List Char} (hq : quote = '"' ∨ quote = '\'')
    (h : Text.trim token.toList = quote :: rest) :
    decode token = decodeString quote (.ofList (quote :: rest)) rest := by
  have hc : quote ≠ 't' ∧ quote ≠ 'f' ∧ quote ≠ 'n' ∧ quote ≠ 'u' := by
    rcases hq with rfl | rfl <;> decide
  rw [decode_of_head hc h, if_pos hq]

theorem decodeString_concat (quote : Char) (token : String) (body : List Char) :
    decodeString quote token (body ++ [quote]) =
      (unescape quote token body).map fun s => .string (.ofList s) := by
  rw [decodeString, if_neg (by simp), List.dropLast_concat]
  cases unescape quote token body <;> rfl

theorem decodeString_of_getLast? {quote : Char} {rest : List Char} (h : rest.getLast? ≠ some quote)
    (token : String) : decodeString quote token rest = .error (.unterminated token) := by
  rw [decodeString, if_pos h]
  rfl

theorem decodeString_eq_ok_iff {quote : Char} {token : String} {rest : List Char} {v : Value} :
    decodeString quote token rest = .ok v ↔
      ∃ s : String, v = .string s ∧ Quoted (DenotesLoosely quote) quote (quote :: rest) s.toList := by
  constructor
  · intro h
    by_cases hlast : rest.getLast? = some quote
    · obtain ⟨body, rfl⟩ := List.getLast?_eq_some_iff.1 hlast
      rw [decodeString_concat] at h
      cases hbody : unescape quote token body with
      | error => simp [hbody, Except.map] at h
      | ok s =>
        refine ⟨.ofList s, ?_, body, rfl, ?_⟩
        · simpa [hbody, Except.map, eq_comm] using h
        · simpa using reads_of_unescape hbody
    · rw [decodeString_of_getLast? hlast] at h
      cases h
  · rintro ⟨s, rfl, body, hrest, hreads⟩
    obtain rfl := (List.cons.inj hrest).2
    rw [List.append_eq, decodeString_concat, unescape_of_reads hreads, Except.map, String.ofList_toList]

/-! ## One reading -/

/-- How long the item is that stands at the start. -/
def itemLength : List Char → Nat
  | '\\' :: 'u' :: _ => 6
  | '\\' :: _ => 2
  | _ => 1

theorem DenotesLoosely.itemLength_append {quote : Char} {text : List Char} {c : Char}
    (h : DenotesLoosely quote text c) (rest : List Char) : itemLength (text ++ rest) = text.length := by
  rcases h with h | h
  · cases h with
    | plain hq hb => simp [itemLength, hb]
    | letter hl => simp [itemLength, ne_u_of_mem_letters hl]
    | code => rfl
  · cases h with
    | mk => rfl

theorem DenotesLoosely.append_inj {quote : Char} {text text' rest rest' : List Char} {c c' : Char}
    (h : DenotesLoosely quote text c) (h' : DenotesLoosely quote text' c')
    (heq : text ++ rest = text' ++ rest') : text = text' ∧ rest = rest' := by
  apply List.append_inj heq
  rw [← h.itemLength_append rest, heq, h'.itemLength_append]

theorem DenotesLoosely.ne_nil {quote : Char} {text : List Char} {c : Char} (h : DenotesLoosely quote text c) :
    text ≠ [] := by
  rcases h with h | h <;> cases h <;> simp

theorem DenotesSigned.not_denotes {quote : Char} {text : List Char} {c c' : Char} (h : DenotesSigned text c) :
    ¬Denotes quote text c' := by
  intro h'
  cases h
  cases h' with
  | code ha => exact ha.ne_plus rfl

/-- There is one way to read a text as items, so none is signed if all can be read without signs. -/
theorem not_signed_of_denotes {quote : Char} {items strict : List (List Char × Char)}
    (hitems : ∀ i ∈ items, DenotesLoosely quote i.1 i.2) (hstrict : ∀ i ∈ strict, Denotes quote i.1 i.2)
    (h : items.flatMap Prod.fst = strict.flatMap Prod.fst) : ∀ i ∈ items, ¬DenotesSigned i.1 i.2 := by
  induction items generalizing strict with
  | nil => simp
  | cons i rest ih =>
    rw [List.forall_mem_cons] at hitems ⊢
    cases strict with
    | nil => exact absurd (List.append_eq_nil_iff.1 h).1 hitems.1.ne_nil
    | cons j others =>
      rw [List.forall_mem_cons] at hstrict
      obtain ⟨htext, hrest⟩ := hitems.1.append_inj (.inl hstrict.1) h
      refine ⟨fun hsigned => ?_, ih hitems.2 hstrict.2 hrest⟩
      rw [htext] at hsigned
      exact hsigned.not_denotes hstrict.1

/-! ## The grammar -/

/-- Decoding gives what the items of a token denote, and an error if they denote nothing. -/
structure DecodedBy (item : List Char → Char → Prop) (quote : Char) (token : String) : Prop where
  ok (s : String) : decode token = .ok (.string s) ↔ Quoted item quote (Text.trim token.toList) s.toList
  error : (∀ s : String, ¬Quoted item quote (Text.trim token.toList) s.toList) →
    ∃ fault, decode token = .error fault

/-- A token of items between quotes, one of which has a plus among its digits. -/
def HasSigned (quote : Char) (token : List Char) : Prop :=
  ∃ items : List (List Char × Char), (∀ i ∈ items, DenotesLoosely quote i.1 i.2) ∧
    token = quote :: items.flatMap Prod.fst ++ [quote] ∧ ∃ i ∈ items, DenotesSigned i.1 i.2

theorem decodedBy_loosely {token : String} {quote : Char} (hq : quote = '"' ∨ quote = '\'')
    (h : (Text.trim token.toList).head? = some quote) : DecodedBy (DenotesLoosely quote) quote token := by
  obtain ⟨rest, hrest⟩ := List.head?_eq_some_iff.1 h
  constructor
  · intro s
    rw [decode_of_quote hq hrest, decodeString_eq_ok_iff, hrest]
    simp
  · intro hnone
    cases hdecode : decode token with
    | error fault => exact ⟨fault, rfl⟩
    | ok v =>
      rw [decode_of_quote hq hrest, decodeString_eq_ok_iff, ← hrest] at hdecode
      obtain ⟨s, -, hs⟩ := hdecode
      exact absurd hs (hnone s)

theorem quoted_loosely_iff {quote : Char} {token s : List Char} (h : ¬HasSigned quote token) :
    Quoted (DenotesLoosely quote) quote token s ↔ Quoted (Denotes quote) quote token s := by
  constructor
  · rintro ⟨body, htoken, items, hitems, rfl, hs⟩
    refine ⟨_, htoken, items, fun i hi => ?_, rfl, hs⟩
    exact (hitems i hi).resolve_right fun hsigned => h ⟨items, hitems, htoken, i, hi, hsigned⟩
  · rintro ⟨body, htoken, items, hitems, hbody, hs⟩
    exact ⟨body, htoken, items, fun i hi => .inl (hitems i hi), hbody, hs⟩

theorem not_hasSigned {quote : Char} {token s : List Char} (h : Quoted (Denotes quote) quote token s) :
    ¬HasSigned quote token := by
  rintro ⟨items, hitems, htoken, i, hi, hsigned⟩
  obtain ⟨body, htoken', strict, hstrict, rfl, -⟩ := h
  have htext : items.flatMap Prod.fst = strict.flatMap Prod.fst := by
    simpa using htoken.symm.trans htoken'
  exact not_signed_of_denotes hitems hstrict htext i hi hsigned

/--
A token that starts with a quote is decoded by the grammar of string literals in which code points may
have a plus for their first digit. It is decoded by the grammar without such code points exactly if it
has none of them.
-/
theorem decode_reads_grammar {token : String} {quote : Char} (hq : quote = '"' ∨ quote = '\'')
    (h : (Text.trim token.toList).head? = some quote) :
    DecodedBy (DenotesLoosely quote) quote token ∧
    (DecodedBy (Denotes quote) quote token ↔ ¬HasSigned quote (Text.trim token.toList)) := by
  have hloosely := decodedBy_loosely hq h
  refine ⟨hloosely, fun hstrict hsigned => ?_, fun hno => ⟨fun s => ?_, fun hnone => ?_⟩⟩
  · obtain ⟨items, hitems, htoken, hsome⟩ := id hsigned
    have hread : Quoted (DenotesLoosely quote) quote (Text.trim token.toList)
        (String.ofList (items.map Prod.snd)).toList := ⟨_, htoken, items, hitems, rfl, by simp⟩
    exact not_hasSigned ((hstrict.ok _).1 ((hloosely.ok _).2 hread)) hsigned
  · rw [hloosely.ok, quoted_loosely_iff hno]
  · exact hloosely.error fun s hs => hnone s ((quoted_loosely_iff hno).1 hs)

theorem HasSigned.plus_mem {quote : Char} {token : List Char} (h : HasSigned quote token) : '+' ∈ token := by
  obtain ⟨items, -, rfl, ⟨text, c⟩, hi, hsigned⟩ := h
  have hplus : '+' ∈ text := by
    cases hsigned
    simp
  simp only [List.cons_append, List.mem_cons, List.mem_append, List.mem_flatMap]
  exact .inr (.inl ⟨_, hi, hplus⟩)

theorem decode_reads_grammar_escapes :
    (Text.trim " 'it\\'s \\u00e9\\n' ".toList).head? = some '\'' ∧
    DecodedBy (Denotes '\'') '\'' " 'it\\'s \\u00e9\\n' " := by
  have hhead : (Text.trim " 'it\\'s \\u00e9\\n' ".toList).head? = some '\'' := by decide
  exact ⟨hhead, (decode_reads_grammar (.inr rfl) hhead).2.2 (mt HasSigned.plus_mem (by decide))⟩

/-- A plus is read as a digit. -/
theorem decode_takes_plus :
    decode "\"\\u+041\"" = .ok (.string "A") ∧ ¬DecodedBy (Denotes '"') '"' "\"\\u+041\"" := by
  have hdecode : decode "\"\\u+041\"" = .ok (.string "A") := rfl
  have hsigned : DenotesSigned ['\\', 'u', '+', '0', '4', '1'] 'A' :=
    .mk (x := 0) (y := 4) (z := 1) (by decide) (by decide) (by decide) (by decide)
  refine ⟨hdecode, fun hstrict => not_hasSigned ((hstrict.ok _).1 hdecode) ?_⟩
  exact ⟨[(_, 'A')], by simpa using .inr hsigned, by decide, (_, _), .head _, hsigned⟩

end Stencil.Literal
