import Mathlib
import Stencil.Program.Listing
import Stencil.Proofs.Arithmetic
import Stencil.Proofs.Literals
import Stencil.View
/-!
# Listed constants

A listing shows constants in a form of its own. For keywords, integers and texts without unprintable
characters that form is a literal of templates for the same constant (`constant_listing_decodes`).
-/

namespace Stencil

/-! ## Integers -/

theorem natural?_toDigits (n : Nat) : natural? (Nat.toDigits 10 n) = some n := by
  have hdigits : (Nat.toDigits 10 n).all Char.isDigit = true :=
    List.all_eq_true.2 fun c hc => Nat.isDigit_of_mem_toDigits (by decide) (by decide) hc
  rw [natural?, hdigits]
  simp [Nat.toDigits_ne_nil, Nat.ofDigitChars_ten_toDigits]

theorem splitSign_of_isDigit {d : Char} (h : d.isDigit = true) (rest : List Char) :
    splitSign (d :: rest) = (false, d :: rest) := by
  unfold splitSign
  split
  · next heq =>
    rw [(List.cons.inj heq).1] at h
    cases h
  · next heq =>
    rw [(List.cons.inj heq).1] at h
    cases h
  · rfl

theorem splitSign_toDigits (n : Nat) : splitSign (Nat.toDigits 10 n) = (false, Nat.toDigits 10 n) := by
  cases hdigits : Nat.toDigits 10 n with
  | nil => rfl
  | cons d rest =>
    refine splitSign_of_isDigit (Nat.isDigit_of_mem_toDigits (b := 10) (n := n) (by decide) (by decide) ?_) rest
    simp [hdigits]

theorem readInt64?_integerText (n : Int64) : readInt64? (integerText n.toInt).toList = some n := by
  rw [integerText, String.toList_ofList]
  by_cases h : n.toInt < 0
  · rw [if_pos h]
    simp only [readInt64?, splitSign, natural?_toDigits, Option.bind_eq_bind, Option.bind_some, if_true]
    exact int64?_eq_some_iff.2 (by omega)
  · rw [if_neg h]
    simp only [readInt64?, splitSign_toDigits, natural?_toDigits, Option.bind_eq_bind, Option.bind_some,
      Bool.false_eq_true, if_false]
    exact int64?_eq_some_iff.2 (by omega)

/-- The text of an integer consists of digits and perhaps a minus. -/
theorem mem_integerText {k : Int} {c : Char} (h : c ∈ (integerText k).toList) :
    45 ≤ c.toNat ∧ c.toNat ≤ 57 := by
  have hdigit (hc : c ∈ Nat.toDigits 10 k.natAbs) : 45 ≤ c.toNat ∧ c.toNat ≤ 57 := by
    have hrange := Nat.isDigit_of_mem_toDigits (by decide) (by decide) hc
    simp only [Char.isDigit, Bool.and_eq_true, decide_eq_true_eq] at hrange
    exact ⟨Nat.le_trans (by decide) (UInt32.le_iff_toNat_le.1 hrange.1), UInt32.le_iff_toNat_le.1 hrange.2⟩
  rw [integerText, String.toList_ofList] at h
  split at h
  · rcases List.mem_cons.1 h with rfl | hc
    · decide
    · exact hdigit hc
  · exact hdigit h

theorem integerText_ne_nil (k : Int) : (integerText k).toList ≠ [] := by
  rw [integerText, String.toList_ofList]
  split
  · simp
  · exact Nat.toDigits_ne_nil

/-! ## Tokens without white space around them -/

theorem dropWhile_eq_self {cs : List Char} (h : ∀ c ∈ cs.head?, Text.isBlank c = false) :
    cs.dropWhile Text.isBlank = cs := by
  cases cs with
  | nil => rfl
  | cons c rest => exact List.dropWhile_cons_of_neg (by simp [h c rfl])

theorem trim_eq_self {cs : List Char} (hfirst : ∀ c ∈ cs.head?, Text.isBlank c = false)
    (hlast : ∀ c ∈ cs.getLast?, Text.isBlank c = false) : Text.trim cs = cs := by
  rw [Text.trim, dropWhile_eq_self hfirst, dropWhile_eq_self (by simpa using hlast), List.reverse_reverse]

/-- Neither blank nor an underscore, and at the start of no string and no keyword. -/
def Numeric (c : Char) : Prop :=
  Text.isBlank c = false ∧ c ≠ '_' ∧ ¬(c = '"' ∨ c = '\'') ∧ c ≠ 't' ∧ c ≠ 'f' ∧ c ≠ 'n' ∧ c ≠ 'u'

instance : DecidablePred Numeric := fun _ => inferInstanceAs (Decidable (_ ∧ _))

theorem numeric_of_mem {k : Int} {c : Char} (h : c ∈ (integerText k).toList) : Numeric c :=
  Literal.char_of_range (by decide) (mem_integerText h).1 (mem_integerText h).2

theorem decode_integerText (n : Int64) : Literal.decode (integerText n.toInt) = .ok (.integer n) := by
  have htrim : Text.trim (integerText n.toInt).toList = (integerText n.toInt).toList :=
    trim_eq_self (fun c hc => (numeric_of_mem (List.mem_of_mem_head? hc)).1)
      (fun c hc => (numeric_of_mem (List.mem_of_mem_getLast? hc)).1)
  obtain ⟨c, rest, hcs⟩ := List.exists_cons_of_ne_nil (integerText_ne_nil n.toInt)
  obtain ⟨-, -, hquote, hkeyword⟩ := numeric_of_mem (show c ∈ (integerText n.toInt).toList by simp [hcs])
  have hfilter : (integerText n.toInt).toList.filter (· ≠ '_') = (integerText n.toInt).toList :=
    List.filter_eq_self.2 fun d hd => by simpa using (numeric_of_mem hd).2.1
  rw [Literal.decode_of_head hkeyword (htrim.trans hcs), if_neg hquote, Literal.decodeNumber, ← hcs, hfilter,
    readInt64?_integerText]

/-! ## Texts -/

/-- Shown in quotes as it is, or as a backslash and a letter. -/
def ShownPlainly (c : Char) : Prop :=
  Text.quoteChar c = [c] ∨
    Text.quoteChar c ∈ [['\\', '0'], ['\\', 't'], ['\\', 'r'], ['\\', 'n'], ['\\', '"'], ['\\', '\\']]

instance : DecidablePred ShownPlainly := fun _ => inferInstanceAs (Decidable (_ ∨ _))

theorem quoteChar_denotes {c : Char} (h : ShownPlainly c) : Literal.Denotes '"' (Text.quoteChar c) c := by
  unfold ShownPlainly at h
  unfold Text.quoteChar at h ⊢
  split_ifs at h ⊢ with h0 ht hr hn hq hb hp
  · exact .letter (by simp [Literal.letters, h0])
  · exact .letter (by simp [Literal.letters, ht])
  · exact .letter (by simp [Literal.letters, hr])
  · exact .letter (by simp [Literal.letters, hn])
  · exact .letter (by simp [Literal.letters, hq])
  · exact .letter (by simp [Literal.letters, hb])
  · exact .plain hq hb
  · simp at h

theorem decode_quote {s : String} (h : ∀ c ∈ s.toList, ShownPlainly c) :
    Literal.decode (Text.quote s) = .ok (.string s) := by
  have htoken : (Text.quote s).toList = '"' :: s.toList.flatMap Text.quoteChar ++ ['"'] := by
    rw [Text.quote, String.toList_ofList]
  have htrim : Text.trim (Text.quote s).toList = (Text.quote s).toList := by
    rw [htoken]
    apply trim_eq_self
    · rintro c ⟨⟩
      decide
    · intro c hc
      rw [List.getLast?_concat] at hc
      obtain rfl := Option.some.inj hc
      decide
  have hdecoded : Literal.DecodedBy (Literal.DenotesLoosely '"') '"' (Text.quote s) :=
    Literal.decodedBy_loosely (.inl rfl) (by rw [htrim, htoken]; rfl)
  rw [hdecoded.ok, htrim]
  refine ⟨_, htoken, s.toList.map fun c => (Text.quoteChar c, c), ?_, ?_, ?_⟩
  · rw [List.forall_mem_map]
    exact fun c hc => .inl (quoteChar_denotes (h c hc))
  · rw [List.flatMap_map]
  · simp [Function.comp_def]

/-! ## Constants -/

/-- Constants that are listed as literals: keywords, integers and texts that are shown plainly. -/
def Value.ListedAsLiteral : Value → Prop
  | .undefined | .null | .bool _ | .integer _ => True
  | .string s => ∀ c ∈ s.toList, ShownPlainly c
  | .real _ | .array _ | .object _ => False

theorem decode_listing {v : Value} (h : v.ListedAsLiteral) : Literal.decode v.listing = .ok v := by
  cases v with
  | undefined => rfl
  | null => rfl
  | bool b => cases b <;> rfl
  | integer n => exact decode_integerText n
  | string s => exact decode_quote h
  | real | array | object => cases h

/-- A literal alone is a template that shows its value. -/
theorem literal_renders {token : String} {v : Value} (h : Literal.decode token = .ok v) (options : Options) :
    ∃ type, ViewType.ofTemplate [.expr (.literal token)] options = .ok type ∧
      ∀ (model : Option Value) (rounds : Nat),
        (type.instantiate model).render rounds = .ok (options.textOf v) := by
  refine ⟨⟨⟨.mk [] [.emit (.const v)], 0⟩, options⟩, ?_, fun model rounds => ?_⟩
  · have hcompile : (compile [.expr (.literal token)]).result = .ok ⟨.mk [] [.emit (.const v)], 0⟩ := by
      simp only [compile, closeBlock, Segment.compileAll, Segment.compile, Expr.compile, h, Traced.result_bind,
        Traced.result_pure]
      rfl
    rw [ViewType.ofTemplate, hcompile]
    rfl
  · change Except.ok ("" ++ options.textOf v) = _
    rw [String.empty_append]

theorem textOf_default (v : Value) : (default : Options).textOf v = v.text := by
  cases v <;> rfl

/--
The listing of a constant is a literal for it, and the template of that literal alone shows the constant's
text, whatever the model.
-/
theorem constant_listing_decodes {v : Value} (h : v.ListedAsLiteral) :
    Literal.decode (Term.const v).listing = .ok v ∧
    ∃ type, ViewType.ofTemplate [.expr (.literal (Term.const v).listing)] default = .ok type ∧
      ∀ (model : Option Value) (rounds : Nat), (type.instantiate model).render rounds = .ok v.text := by
  have hdecode : Literal.decode (Term.const v).listing = .ok v := by
    rw [Term.listing]
    exact decode_listing h
  refine ⟨hdecode, ?_⟩
  rw [← textOf_default v]
  exact literal_renders hdecode default

theorem constant_listing_decodes_escapes :
    (Value.string " it's\t\"\\\x00\r\né ").ListedAsLiteral ∧
    Literal.decode (Term.const (.string " it's\t\"\\\x00\r\né ")).listing =
      .ok (.string " it's\t\"\\\x00\r\né ") ∧
    Literal.decode (Term.const (.integer Int64.minValue)).listing = .ok (.integer Int64.minValue) := by
  have hshown : (Value.string " it's\t\"\\\x00\r\né ").ListedAsLiteral := by
    simp only [Value.ListedAsLiteral, String.reduceToList, List.forall_mem_cons, List.not_mem_nil,
      false_implies, implies_true, and_true]
    and_intros
    all_goals decide +kernel
  exact ⟨hshown, (constant_listing_decodes hshown).1, (constant_listing_decodes (v := .integer _) trivial).1⟩

end Stencil
