import Mathlib
import Stencil.Json.Reader
import Stencil.Proofs.Interchange
/-!
# Key order of what is read

Fields enter an object by insertion, so the names of every object that is read ascend, at every depth
(`Json.parse?_keyOrdered`). The scanner and the reader are folds, and each step keeps the order of what they hold. A
member of an ordered value is ordered again.
-/

namespace Stencil

/-! ## Fields -/

section Fields
variable {α : Type}

theorem Fields.mem_of_get? {name : String} {a : α} {fields : Fields α} (h : fields.get? name = some a) :
    (name, a) ∈ fields := by
  induction fields with
  | nil => cases h
  | cons first rest ih =>
    rw [Fields.get?] at h
    split at h
    next heq =>
      cases h
      exact heq ▸ List.mem_cons_self
    next => exact List.mem_cons_of_mem _ (ih h)

theorem Fields.mem_insert {name : String} {a : α} {fields : Fields α} {field : String × α}
    (h : field ∈ fields.insert name a) : field = (name, a) ∨ field ∈ fields := by
  induction fields with
  | nil => exact .inl (List.mem_singleton.1 h)
  | cons first rest ih =>
    rw [Fields.insert] at h
    split at h
    · exact (List.mem_cons.1 h).imp_right (List.mem_cons_of_mem _)
    · split at h
      · exact List.mem_cons.1 h
      · rcases List.mem_cons.1 h with rfl | h
        · exact .inr List.mem_cons_self
        · exact (ih h).imp_right (List.mem_cons_of_mem _)

theorem Fields.ascending_cons {first : String × α} {rest : Fields α} :
    Fields.Ascending (first :: rest) ↔ (∀ field ∈ rest, first.1 < field.1) ∧ rest.Ascending := by
  rw [Ascending, List.map_cons, List.pairwise_cons, List.forall_mem_map]
  rfl

theorem Fields.Ascending.insert {fields : Fields α} (h : fields.Ascending) (name : String) (a : α) :
    (fields.insert name a).Ascending := by
  induction fields with
  | nil => exact List.pairwise_singleton _ _
  | cons first rest ih =>
    obtain ⟨hfirst, hrest⟩ := Fields.ascending_cons.1 h
    rw [Fields.insert]
    split
    next heq => exact Fields.ascending_cons.2 ⟨fun field hf => heq ▸ hfirst field hf, hrest⟩
    next hne =>
      split
      next hlt =>
        refine Fields.ascending_cons.2 ⟨List.forall_mem_cons.2 ⟨hlt, fun field hf => ?_⟩, h⟩
        exact hlt.trans (hfirst field hf)
      next hge =>
        have hlt : first.1 < name := lt_of_le_of_ne (not_lt.1 hge) (Ne.symm hne)
        refine Fields.ascending_cons.2 ⟨fun field hf => ?_, ih hrest⟩
        rcases Fields.mem_insert hf with rfl | hf
        · exact hlt
        · exact hfirst field hf

end Fields

theorem Value.KeyOrdered.member {v : Value} (h : v.KeyOrdered) (name : String) : (v.member name).KeyOrdered := by
  cases h with
  | @object fields names h =>
    rw [Value.member]
    cases hget : Fields.get? name fields with
    | none => exact .undefined
    | some w => exact h _ (Fields.mem_of_get? hget)
  | array | string =>
    rw [Value.member]
    split
    · exact .integer _
    · exact .undefined
  | undefined | null | bool | integer | real => exact .undefined

namespace Json

theorem keyOrdered_empty : KeyOrdered (.object []) := keyOrdered_object_iff.2 ⟨.nil, by simp⟩

theorem KeyOrdered.insert {fields : Fields Json} (h : KeyOrdered (.object fields)) (name : String) {value : Json}
    (hv : value.KeyOrdered) : KeyOrdered (.object (fields.insert name value)) := by
  obtain ⟨names, hfields⟩ := keyOrdered_object_iff.1 h
  refine .object (names.insert name value) fun field hf => ?_
  rcases Fields.mem_insert hf with rfl | hf
  · exact hv
  · exact hfields field hf

/-! ## Folds that may fail -/

theorem foldlM_keeps {σ α : Type} {P : σ → Prop} {Q : α → Prop} {f : σ → α → Option σ}
    (step : ∀ s a s', P s → Q a → f s a = some s' → P s') {l : List α} (hl : ∀ a ∈ l, Q a) {s s' : σ} (hs : P s)
    (h : l.foldlM f s = some s') : P s' := by
  induction l generalizing s with
  | nil =>
    obtain rfl : s = s' := by simpa using h
    exact hs
  | cons a rest ih =>
    obtain ⟨ha, hrest⟩ := List.forall_mem_cons.1 hl
    rw [List.foldlM_cons] at h
    obtain ⟨next, hnext, h⟩ := Option.bind_eq_some_iff.1 h
    exact ih hrest (step s a next hs ha hnext) h

/-! ## Tokens -/

/-- A token that is a value is an ordered one. -/
def Token.KeyOrdered : Token → Prop
  | .word value => value.KeyOrdered
  | _ => True

theorem number?_keyOrdered {cs : List Char} {value : Json} (h : number? cs = some value) : value.KeyOrdered := by
  unfold number? at h
  split at h
  dsimp only at h
  split_ifs at h
  · cases h
    exact .integer _
  · cases h
    exact .integer _
  · obtain ⟨x, -, hx⟩ := Option.bind_eq_some_iff.1 h
    split at hx
    · cases hx
      exact .real x
    · cases hx

theorem word?_keyOrdered {cs : List Char} {value : Json} (h : word? cs = some value) : value.KeyOrdered := by
  unfold word? at h
  split at h
  · cases h
    exact .null
  · split at h
    · cases h
      exact .bool true
    · split at h
      · cases h
        exact .bool false
      · exact number?_keyOrdered h

theorem punctuation?_keyOrdered {c : Char} {token : Token} (h : punctuation? c = some token) : token.KeyOrdered := by
  unfold punctuation? at h
  split_ifs at h <;> cases h <;> trivial

/-- The tokens that are finished are ordered. -/
def Scanned (state : Scan × List Token) : Prop := ∀ token ∈ state.2, token.KeyOrdered

theorem scanBetween_scanned {done : List Token} {c : Char} {next : Scan × List Token}
    (hd : ∀ token ∈ done, token.KeyOrdered) (h : scanBetween done c = some next) : Scanned next := by
  unfold scanBetween at h
  split at h
  · cases h
    exact hd
  · split at h
    · cases h
      exact hd
    · split at h
      next token ht =>
        cases h
        exact List.forall_mem_cons.2 ⟨punctuation?_keyOrdered ht, hd⟩
      next =>
        cases h
        exact hd

theorem scan_scanned : ∀ {state : Scan × List Token} {c : Char} {next : Scan × List Token}, Scanned state →
    scan state c = some next → Scanned next
  | (.between, done), c, next, hd, h => scanBetween_scanned hd h
  | (.word read, done), c, next, hd, h => by
    rw [scan] at h
    split at h
    · obtain ⟨value, hv, h⟩ := Option.bind_eq_some_iff.1 h
      have hword : (Token.word value).KeyOrdered := word?_keyOrdered hv
      exact scanBetween_scanned (List.forall_mem_cons.2 ⟨hword, hd⟩) h
    · cases h
      exact hd
  | (.string read high, done), c, next, hd, h => by
    rw [scan] at h
    split_ifs at h <;> cases h
    · exact hd
    · exact List.forall_mem_cons.2 ⟨trivial, hd⟩
    · exact hd
  | (.escape read high, done), c, next, hd, h => by
    rw [scan] at h
    split_ifs at h
    · cases h
      exact hd
    · obtain ⟨e, -, rfl⟩ := Option.map_eq_some_iff.1 h
      exact hd
  | (.code read high digits, done), c, next, hd, h => by
    rw [scan] at h
    obtain ⟨digit, -, h⟩ := Option.bind_eq_some_iff.1 h
    split at h
    · obtain ⟨unit, -, h⟩ := Option.bind_eq_some_iff.1 h
      cases h
      exact hd
    · cases h
      exact hd

theorem tokens?_keyOrdered {cs : List Char} {tokens : List Token} (h : tokens? cs = some tokens) :
    ∀ token ∈ tokens, token.KeyOrdered := by
  obtain ⟨⟨state, done⟩, hfold, h⟩ := Option.bind_eq_some_iff.1 h
  have hd : Scanned (state, done) :=
    foldlM_keeps (Q := fun _ => True) (fun _ _ _ hs _ => scan_scanned hs) (fun _ _ => trivial) (by simp [Scanned]) hfold
  cases state with
  | between =>
    cases h
    exact fun token ht => hd token (List.mem_reverse.1 ht)
  | word read =>
    obtain ⟨value, hv, rfl⟩ := Option.map_eq_some_iff.1 h
    have hword : (Token.word value).KeyOrdered := word?_keyOrdered hv
    exact fun token ht => List.forall_mem_cons.2 ⟨hword, hd⟩ token (List.mem_reverse.1 ht)
  | string | escape | code => cases h

/-! ## The reader -/

/-- What the open array or object holds is ordered. -/
def Frame.KeyOrdered : Frame → Prop
  | .item items => ∀ item ∈ items, item.KeyOrdered
  | .field fields _ => Json.KeyOrdered (.object fields)

/-- All that the reader holds is ordered. -/
def Reading.KeyOrdered : Reading → Prop
  | .value outer | .firstItem outer | .firstName outer => ∀ frame ∈ outer, frame.KeyOrdered
  | .nextItem items outer => (∀ item ∈ items, item.KeyOrdered) ∧ ∀ frame ∈ outer, frame.KeyOrdered
  | .nextName fields outer | .colon fields _ outer | .nextField fields outer =>
    Json.KeyOrdered (.object fields) ∧ ∀ frame ∈ outer, frame.KeyOrdered
  | .done result => result.KeyOrdered

theorem accept_keyOrdered {value : Json} (hv : value.KeyOrdered) :
    ∀ {outer : List Frame}, (∀ frame ∈ outer, frame.KeyOrdered) → (accept value outer).KeyOrdered
  | [], _ => hv
  | .item items :: outer, h => by
    obtain ⟨hitems, houter⟩ := List.forall_mem_cons.1 h
    exact ⟨List.forall_mem_cons.2 ⟨hv, hitems⟩, houter⟩
  | .field fields name :: outer, h => by
    obtain ⟨hfields, houter⟩ := List.forall_mem_cons.1 h
    exact ⟨hfields.insert name hv, houter⟩

theorem start_keyOrdered {maxDepth : Nat} {outer : List Frame} {token : Token} {next : Reading}
    (houter : ∀ frame ∈ outer, frame.KeyOrdered) (ht : token.KeyOrdered) (h : start maxDepth outer token = some next) :
    next.KeyOrdered := by
  cases token with
  | string s =>
    cases h
    exact accept_keyOrdered (.string s) houter
  | word value =>
    cases h
    exact accept_keyOrdered ht houter
  | openArray | openObject =>
    rw [start] at h
    split at h <;> cases h
    exact houter
  | closeArray | closeObject | comma | colon => cases h

theorem read_keyOrdered {maxDepth : Nat} {reading : Reading} {token : Token} {next : Reading} (hr : reading.KeyOrdered)
    (ht : token.KeyOrdered) (h : read maxDepth reading token = some next) : next.KeyOrdered := by
  unfold read at h
  split at h
  · exact start_keyOrdered hr ht h
  -- the array ends without an item, or has its first
  · cases h
    exact accept_keyOrdered (.array (by simp)) hr
  · exact start_keyOrdered (List.forall_mem_cons.2 ⟨by simp [Frame.KeyOrdered], hr⟩) ht h
  -- after an item comes another, or the array ends
  · cases h
    exact List.forall_mem_cons.2 hr
  · cases h
    exact accept_keyOrdered (.array fun item hi => hr.1 item (List.mem_reverse.1 hi)) hr.2
  -- the object ends without a field, or has its first name
  · cases h
    exact accept_keyOrdered keyOrdered_empty hr
  · cases h
    exact ⟨keyOrdered_empty, hr⟩
  -- a later name, the colon after a name, and the comma after a field
  · cases h
    exact hr
  · cases h
    exact List.forall_mem_cons.2 hr
  · cases h
    exact hr
  -- the object ends after a field
  · cases h
    exact accept_keyOrdered hr.1 hr.2
  · cases h

/-- The names of every object in a value that is read ascend. -/
theorem parse?_keyOrdered {maxDepth : Nat} {text : String} {value : Json} (h : parse? maxDepth text = some value) :
    value.KeyOrdered := by
  obtain ⟨tokens, htokens, h⟩ := Option.bind_eq_some_iff.1 h
  obtain ⟨reading, hfold, h⟩ := Option.bind_eq_some_iff.1 h
  have hr : reading.KeyOrdered :=
    foldlM_keeps (fun _ _ _ => read_keyOrdered) (tokens?_keyOrdered htokens) (by simp [Reading.KeyOrdered]) hfold
  cases reading with
  | done result =>
    cases h
    exact hr
  | _ => cases h

end Json

end Stencil
