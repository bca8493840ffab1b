import Mathlib
import Stencil.Proofs.Binders
import Stencil.Proofs.Direct
/-!
# Slots seen as frames of names

The machine's slots show as frames of names through the scope (`view`). `Agrees` relates two runs that
end alike when they start in related states. A term then has the value that its expression has by name
(`Expr.direct_agrees`), and each thing a step does to the slots is what the statement does to the frames.
-/

namespace Stencil

/-! ## Runs that agree -/

section Agrees
variable {ε σ τ α β : Type} {E : ε → ε → Prop} {R R₁ R₂ R₃ : σ → τ → Prop}

/-- From states in `R` both runs end, with the same result, in states in `R'`, or both halt, with halts in `E`. -/
def AgreesUpTo (E : ε → ε → Prop) (R R' : σ → τ → Prop) (x : EStateM ε σ α) (y : EStateM ε τ α) : Prop :=
  ∀ s t, R s t →
    match x s, y t with
    | .ok a s', .ok b t' => a = b ∧ R' s' t'
    | .error e _, .error f _ => E e f
    | _, _ => False

theorem AgreesUpTo.ends {x : EStateM ε σ α} {y : EStateM ε τ α} (h : AgreesUpTo E R R₁ x y) {s : σ} {t : τ}
    (hst : R s t) :
    (∃ a s' t', x s = .ok a s' ∧ y t = .ok a t' ∧ R₁ s' t') ∨
      ∃ e f s' t', x s = .error e s' ∧ y t = .error f t' ∧ E e f := by
  have hxy := h s t hst
  cases hx : x s <;> cases hy : y t <;> simp_all

theorem AgreesUpTo.pure (a : α) : AgreesUpTo E R R (Pure.pure a : EStateM ε σ α) (Pure.pure a : EStateM ε τ α) :=
  fun _ _ h => ⟨rfl, h⟩

theorem AgreesUpTo.throw {e f : ε} (h : E e f) :
    AgreesUpTo E R R₁ (MonadExcept.throw e : EStateM ε σ α) (MonadExcept.throw f : EStateM ε τ α) :=
  fun _ _ _ => h

theorem AgreesUpTo.bind {x : EStateM ε σ α} {y : EStateM ε τ α} {f : α → EStateM ε σ β} {g : α → EStateM ε τ β}
    (hx : AgreesUpTo E R₁ R₂ x y) (hf : ∀ a, AgreesUpTo E R₂ R₃ (f a) (g a)) :
    AgreesUpTo E R₁ R₃ (x >>= f) (y >>= g) := by
  intro s t h
  rcases hx.ends h with ⟨a, s', t', hxs, hyt, h'⟩ | ⟨e, e', s', t', hxs, hyt, he⟩
  · rw [bind_of_ok hxs, bind_of_ok hyt]
    exact hf a s' t' h'
  · rw [bind_of_error hxs, bind_of_error hyt]
    exact he

theorem AgreesUpTo.discard {x : EStateM ε σ α} {y : EStateM ε τ α} (hx : AgreesUpTo E R₁ R₂ x y) :
    AgreesUpTo E R₁ R₂ (discard x) (discard y) := by
  rw [discard_eq_bind, discard_eq_bind]
  exact .bind hx fun _ => .pure ()

/-- The second run may do more, as long as the states stay related. -/
theorem AgreesUpTo.skip {a : β} {x : EStateM ε σ α} {z : EStateM ε τ β} {g : β → EStateM ε τ α}
    (hz : ∀ s t, R₁ s t → ∃ t', z t = .ok a t' ∧ R₂ s t') (hx : AgreesUpTo E R₂ R₃ x (g a)) :
    AgreesUpTo E R₁ R₃ x (z >>= g) := by
  intro s t h
  obtain ⟨t', ht, h'⟩ := hz s t h
  rw [bind_of_ok ht]
  exact hx s t' h'

theorem AgreesUpTo.forM {f : α → EStateM ε σ Unit} {g : α → EStateM ε τ Unit}
    (hf : ∀ a, AgreesUpTo E R R (f a) (g a)) (l : List α) : AgreesUpTo E R R (l.forM f) (l.forM g) := by
  induction l with
  | nil => exact .pure ()
  | cons a l ih => exact .bind (hf a) fun _ => ih

/-! ### Runs that halt alike -/

/-- From states in `R` both runs end, with the same result, in states in `R'`, or both halt alike. -/
def Agrees (R R' : σ → τ → Prop) (x : EStateM ε σ α) (y : EStateM ε τ α) : Prop := AgreesUpTo Eq R R' x y

theorem Agrees.ends {x : EStateM ε σ α} {y : EStateM ε τ α} (h : Agrees R R₁ x y) {s : σ} {t : τ} (hst : R s t) :
    (∃ a s' t', x s = .ok a s' ∧ y t = .ok a t' ∧ R₁ s' t') ∨
      ∃ e s' t', x s = .error e s' ∧ y t = .error e t' := by
  have hxy := h s t hst
  cases hx : x s <;> cases hy : y t <;> simp_all

theorem Agrees.pure (a : α) : Agrees R R (Pure.pure a : EStateM ε σ α) (Pure.pure a : EStateM ε τ α) :=
  fun _ _ h => ⟨rfl, h⟩

theorem Agrees.throw (e : ε) :
    Agrees R R₁ (MonadExcept.throw e : EStateM ε σ α) (MonadExcept.throw e : EStateM ε τ α) :=
  fun _ _ _ => rfl

theorem Agrees.bind {x : EStateM ε σ α} {y : EStateM ε τ α} {f : α → EStateM ε σ β} {g : α → EStateM ε τ β}
    (hx : Agrees R₁ R₂ x y) (hf : ∀ a, Agrees R₂ R₃ (f a) (g a)) : Agrees R₁ R₃ (x >>= f) (y >>= g) :=
  AgreesUpTo.bind hx hf

theorem Agrees.discard {x : EStateM ε σ α} {y : EStateM ε τ α} (hx : Agrees R₁ R₂ x y) :
    Agrees R₁ R₂ (discard x) (discard y) :=
  AgreesUpTo.discard hx

theorem Agrees.forM {f : α → EStateM ε σ Unit} {g : α → EStateM ε τ Unit}
    (hf : ∀ a, Agrees R R (f a) (g a)) (l : List α) : Agrees R R (l.forM f) (l.forM g) :=
  AgreesUpTo.forM hf l

/-- What the first run keeps may be assumed of its states. -/
theorem Agrees.keeping {I : σ → Prop} {E : ε → Prop} {x : EStateM ε σ α} {y : EStateM ε τ α}
    (hx : Agrees R₁ R₂ x y) (hI : Keeps I E x) :
    Agrees (fun s t => R₁ s t ∧ I s) (fun s t => R₂ s t ∧ I s) x y := by
  intro s t h
  have hst := hx s t h.1
  have hs := hI s h.2
  cases hxs : x s <;> cases hyt : y t <;> simp_all

theorem Agrees.weaken {x : EStateM ε σ α} {y : EStateM ε τ α} (hx : Agrees R₁ R₂ x y)
    (h : ∀ s t, R s t → R₁ s t) : Agrees R R₂ x y :=
  fun s t hst => hx s t (h s t hst)

theorem Agrees.relax {x : EStateM ε σ α} {y : EStateM ε τ α} (hx : Agrees R R₁ x y)
    (h : ∀ s t, R₁ s t → R₂ s t) : Agrees R R₂ x y := by
  intro s t hst
  have hxy := hx s t hst
  cases hxs : x s <;> cases hyt : y t <;> simp_all

theorem Agrees.skip {a : β} {x : EStateM ε σ α} {z : EStateM ε τ β} {g : β → EStateM ε τ α}
    (hz : ∀ s t, R₁ s t → ∃ t', z t = .ok a t' ∧ R₂ s t') (hx : Agrees R₂ R₃ x (g a)) :
    Agrees R₁ R₃ x (z >>= g) :=
  AgreesUpTo.skip hz hx

theorem Agrees.andThen {x : EStateM ε σ Unit} {y z : EStateM ε τ Unit} (hx : Agrees R₁ R₂ x y)
    (hz : ∀ s t, R₂ s t → ∃ t', z t = .ok () t' ∧ R₃ s t') : Agrees R₁ R₃ x (y >>= fun _ => z) := by
  have h := hx.bind fun _ => Agrees.skip hz (Agrees.pure () : Agrees R₃ R₃ (ε := ε) _ _)
  simpa using h

end Agrees

/-- Loops agree when their tests and rounds do, however the monads define them. -/
theorem AgreesUpTo.loop {ε σ τ : Type} {E : ε → ε → Prop} {R : σ → τ → Prop} {test : EStateM ε σ Bool}
    {test' : EStateM ε τ Bool} {round : EStateM ε σ Unit} {round' : EStateM ε τ Unit} {run : Nat → EStateM ε σ Unit}
    {run' : Nat → EStateM ε τ Unit} (ht : AgreesUpTo E R R test test') (hr : AgreesUpTo E R R round round')
    (h₀ : AgreesUpTo E R R (run 0) (run' 0))
    (hs : ∀ n, run (n + 1) = do if ← test then do round; run n)
    (hs' : ∀ n, run' (n + 1) = do if ← test' then do round'; run' n) (rounds : Nat) :
    AgreesUpTo E R R (run rounds) (run' rounds) := by
  induction rounds with
  | zero => exact h₀
  | succ rounds ih =>
    rw [hs, hs']
    refine .bind ht fun b => ?_
    cases b with
    | true => exact .bind hr fun _ => ih
    | false => exact .pure ()

theorem Exec.loop_agrees {R : Machine → Direct.State → Prop} {test : Exec Bool} {test' : Direct.Exec Bool}
    {round : Exec Unit} {round' : Direct.Exec Unit} (ht : Agrees R R test test')
    (hr : Agrees R R round round') (rounds : Nat) :
    Agrees R R (Exec.loop test round rounds) (Direct.Exec.loop test' round' rounds) :=
  AgreesUpTo.loop ht hr (.throw rfl) (fun _ => rfl) (fun _ => rfl) rounds

/-! ## Slots as frames -/

/-- The value in a variable's slot. -/
def Local.value (slots : Slots) (x : Local) : Value := slots[x.slot]?.getD .undefined

def Local.binding (slots : Slots) (x : Local) : String × Value := (x.name, x.value slots)

/-- What the slots hold, by the names that the frames give them. -/
def view (frames : List (List Local)) (slots : Slots) : Direct.Frames :=
  frames.map (·.map (Local.binding slots))

section View
variable {frame : List Local} {frames : List (List Local)} {slots : Slots} {x : String} {y : Local}

theorem Local.value_set_self (h : y.slot < slots.size) (v : Value) :
    y.value (slots.setIfInBounds y.slot v) = v := by
  simp [Local.value, h]

theorem Local.value_set_of_ne {s : Nat} (h : y.slot ≠ s) (v : Value) :
    y.value (slots.setIfInBounds s v) = y.value slots := by
  simp [Local.value, Array.getElem?_setIfInBounds_ne h.symm]

theorem lookup_binding :
    (frame.map (Local.binding slots)).lookup x = (frame.find? (·.name == x)).map (Local.value slots) := by
  induction frame with
  | nil => rfl
  | cons z rest ih =>
    by_cases hz : z.name = x
    · subst hz
      simp [Local.binding]
    · have hz' : (x == z.name) = false := by simpa using Ne.symm hz
      simp [Local.binding, List.lookup, hz, hz', ih]

theorem value?_view :
    Direct.Frames.value? (view frames slots) x = (innermost? frames.flatten x).map (Local.value slots) := by
  unfold Direct.Frames.value? innermost? view
  induction frames with
  | nil => rfl
  | cons frame outer ih =>
    simp only [List.map_cons, List.findSome?_cons, lookup_binding, List.flatten_cons, List.find?_append, ih]
    cases frame.find? (·.name == x) <;> rfl

theorem view_congr {slots' : Slots} (h : ∀ z ∈ frames.flatten, slots'[z.slot]? = slots[z.slot]?) :
    view frames slots' = view frames slots := by
  refine List.map_congr_left fun frame hf => List.map_congr_left fun z hz => ?_
  rw [Local.binding, Local.binding, Local.value, Local.value, h z (List.mem_flatten.2 ⟨frame, hf, hz⟩)]

theorem map_binding_set {s : Nat} (hs : ∀ z ∈ frame, z.slot ≠ s) (v : Value) :
    frame.map (Local.binding (slots.setIfInBounds s v)) = frame.map (Local.binding slots) := by
  refine List.map_congr_left fun z hz => ?_
  rw [Local.binding, Local.binding, Local.value_set_of_ne (hs z hz)]

/-- A slot that no frame names is not seen. -/
theorem view_set_of_unseen {s : Nat} (hs : ∀ z ∈ frames.flatten, z.slot ≠ s) (v : Value) :
    view frames (slots.setIfInBounds s v) = view frames slots :=
  view_congr fun z hz => Array.getElem?_setIfInBounds_ne (hs z hz).symm

theorem map_binding_rebind (hd : (frame.map Local.slot).Nodup) (hlt : y.slot < slots.size)
    (hy : frame.find? (·.name == x) = some y) (v : Value) :
    frame.map (Local.binding (slots.setIfInBounds y.slot v)) =
      Direct.Frame.rebind x v (frame.map (Local.binding slots)) := by
  induction frame with
  | nil => simp at hy
  | cons z rest ih =>
    simp only [List.map_cons, List.nodup_cons] at hd
    have hr : ∀ w ∈ rest, w.slot ≠ z.slot := fun w hw h => hd.1 (h ▸ List.mem_map_of_mem hw)
    rw [List.map_cons, List.map_cons, Direct.Frame.rebind, Local.binding, Local.binding]
    by_cases hz : z.name = x
    · simp only [List.find?_cons, hz, beq_self_eq_true, Option.some.injEq] at hy
      subst hy
      rw [if_pos hz, map_binding_set hr, Local.value_set_self hlt]
    · have hz' : (z.name == x) = false := by simpa using hz
      simp only [List.find?_cons, hz'] at hy
      have hne := hr y (List.mem_of_find?_eq_some hy)
      rw [if_neg hz, ih hd.2 hy, Local.value_set_of_ne hne.symm]

/-- Setting the slot of a visible name rebinds the name. -/
theorem view_rebind (hd : (frames.flatten.map Local.slot).Nodup) (hlt : y.slot < slots.size)
    (hy : innermost? frames.flatten x = some y) (v : Value) :
    view frames (slots.setIfInBounds y.slot v) = Direct.Frames.rebind x v (view frames slots) := by
  induction frames with
  | nil => simp [innermost?] at hy
  | cons frame outer ih =>
    rw [List.flatten_cons, List.map_append, List.nodup_append] at hd
    obtain ⟨hf, ho, hfo⟩ := hd
    rw [innermost?, List.flatten_cons, List.find?_append] at hy
    -- the slots are distinct, so the one that is set is seen through one frame only
    change _ :: view outer _ = Direct.Frames.rebind x v (_ :: view outer slots)
    rw [Direct.Frames.rebind, lookup_binding]
    cases hfind : frame.find? (·.name == x) with
    | some z =>
      simp only [hfind, Option.some_or, Option.some.injEq] at hy
      subst hy
      have hm := List.mem_map_of_mem (f := Local.slot) (List.mem_of_find?_eq_some hfind)
      have hunseen : ∀ w ∈ outer.flatten, w.slot ≠ z.slot :=
        fun w hw h => hfo _ hm _ (List.mem_map_of_mem hw) h.symm
      simp [map_binding_rebind hf hlt hfind, view_set_of_unseen hunseen]
    | none =>
      simp only [hfind, Option.none_or] at hy
      have hm := List.mem_map_of_mem (f := Local.slot) (List.mem_of_find?_eq_some hy)
      have hunseen : ∀ w ∈ frame, w.slot ≠ y.slot := fun w hw h => hfo _ (List.mem_map_of_mem hw) _ hm h
      simp [map_binding_set hunseen, ih ho hy]

end View

/-! ## Scopes that hand out slots once -/

/-- No two visible variables share a slot, and the next slot is free. -/
structure Scope.Sound (scope : Scope) : Prop where
  distinct : (scope.frames.flatten.map Local.slot).Nodup
  below : ∀ x ∈ scope.frames.flatten, x.slot < scope.count

section Sound
variable {scope scope' : Scope}

theorem Scope.Sound.of_frames (hs : scope.Sound) (hf : scope'.frames = scope.frames)
    (hc : scope.count ≤ scope'.count) : scope'.Sound where
  distinct := hf ▸ hs.distinct
  below x hx := Nat.lt_of_lt_of_le (hs.below x (hf ▸ hx)) hc

theorem Scope.Sound.push (hs : scope.Sound) : scope.push.Sound where
  distinct := hs.distinct
  below := hs.below

theorem Scope.Sound.unseen (hs : scope.Sound) {s : Nat} (h : scope.count ≤ s) :
    ∀ x ∈ scope.frames.flatten, x.slot ≠ s := fun x hx => by
  have := hs.below x hx
  omega

theorem Scope.Sound.declare (hs : scope.Sound) (x : String) : (scope.declare x).2.Sound := by
  constructor
  · rw [declare_binders, List.map_cons, List.nodup_cons]
    refine ⟨fun h => ?_, hs.distinct⟩
    obtain ⟨y, hy, heq⟩ := List.mem_map.1 h
    exact hs.unseen (Nat.le_refl _) y hy heq
  · intro y hy
    rw [declare_binders] at hy
    rw [declare_count]
    rcases List.mem_cons.1 hy with rfl | hy
    · exact Nat.lt_succ_self _
    · exact Nat.lt_succ_of_lt (hs.below y hy)

end Sound

theorem Compiled.sound {scope scope' : Scope} {part : Part} {steps : List Step}
    (h : Compiled scope part steps scope') (hs : scope.Sound) : scope'.Sound := by
  induction h with
  | store | assign | label | guarded | evaluate | text | emit | nil | flag | noAttributes => exact hs
  | declare => exact hs.declare _
  | when _ _ ih | switch _ _ ih | block _ ih | statement _ ih | update _ ih | valued _ _ ih => exact ih hs
  | choose _ _ _ ihb iho => exact iho (ihb hs)
  | loop hi _ hu hb =>
    have hc := hi.introduced.append (hu.introduced.append hb.introduced)
    exact hs.of_frames (pop_of_frames (hb.frames (hu.frames (hi.frames rfl)))).2 (by simpa using hc.le)
  | each _ _ hb =>
    have hc := hb.introduced.le
    rw [declare_count, Scope.push_count] at hc
    exact hs.of_frames (pop_of_frames (hb.frames rfl)).2 (by rw [Scope.pop_count]; omega)
  | body hl =>
    exact hs.of_frames (pop_of_frames (hl.frames rfl)).2 (by simpa using hl.introduced.le)
  | closed _ _ _ ih => exact ih hs
  | element _ _ _ _ iha ihc => exact ihc (iha hs)
  | cons _ _ ihs ihr | moreAttributes _ _ ihs ihr => exact ihr (ihs hs)

/-! ## Expressions -/

/-- There are `n` slots, and the named frames are what the slots show. -/
def Shown (n : Nat) (frames : List (List Local)) (slots : Slots) (named : Direct.Frames) : Prop :=
  slots.size = n ∧ named = view frames slots

section Expressions
variable {n : Nat} {scope : Scope} {frames : List (List Local)} {model : Value} {x : String} {y : Local}

theorem Local.getElem?_slot {slots : Slots} (h : y.slot < slots.size) : slots[y.slot]? = some (y.value slots) := by
  simp [Local.value, h]

theorem Eval.get_agrees (hlt : y.slot < n) (hy : innermost? frames.flatten x = some y) :
    Agrees (Shown n frames) (Shown n frames) (Eval.get y.slot) (Direct.Eval.read model x) := by
  rintro slots _ ⟨rfl, rfl⟩
  simp [Eval.get, Local.getElem?_slot hlt, Direct.Eval.read, value?_view, hy, Shown]

theorem Eval.read_agrees (hx : innermost? frames.flatten x = none) :
    Agrees (Shown n frames) (Shown n frames) (pure (modelField model x)) (Direct.Eval.read model x) := by
  rintro slots _ ⟨rfl, rfl⟩
  simp [pure, EStateM.pure, Direct.Eval.read, value?_view, hx, Shown]

theorem Eval.update_agrees (hd : (frames.flatten.map Local.slot).Nodup) (hlt : y.slot < n)
    (hy : innermost? frames.flatten x = some y) (op : UpdateOp) :
    Agrees (Shown n frames) (Shown n frames) ((Term.update op y).eval model) (Direct.Eval.update op x) := by
  rintro slots _ ⟨rfl, rfl⟩
  have hname : y.name = x := by simpa using List.find?_some hy
  have hget : Eval.get y.slot slots = .ok (y.value slots) slots := by
    simp [Eval.get, Local.getElem?_slot hlt]
  rw [Term.eval, bind_of_ok hget]
  cases hw : op.apply? (y.value slots) with
  | none => simp [Direct.Eval.update, value?_view, hy, hw, hname, throw, throwThe, MonadExceptOf.throw, EStateM.throw]
  | some w =>
    have hset : Eval.set y.slot w slots = .ok () (slots.setIfInBounds y.slot w) := by simp [Eval.set, hlt]
    simp only [bind_of_ok hset]
    simp [pure, EStateM.pure, Direct.Eval.update, value?_view, hy, hw, Shown, view_rebind hd hlt hy]

theorem Eval.ofExcept_agrees {α : Type} (r : Except Fault α) :
    Agrees (Shown n frames) (Shown n frames) (Eval.ofExcept r) (Direct.Eval.ofExcept r) := by
  cases r with
  | ok a => exact .pure a
  | error f => exact .throw _

theorem resolve?_lt (hs : scope.Sound) (hn : scope.count ≤ n) (hy : scope.resolve? x = some y) : y.slot < n := by
  rw [resolve?_eq_innermost?] at hy
  exact Nat.lt_of_lt_of_le (hs.below y (List.mem_of_find?_eq_some hy)) hn

mutual

/-- A term has the value that its expression has by name. -/
theorem Expr.direct_agrees (hs : scope.Sound) (hn : scope.count ≤ n) :
    ∀ (e : Expr) (t : Term), (e.compile scope).result = .ok t →
      Agrees (Shown n scope.frames) (Shown n scope.frames) (t.eval model) (e.direct model)
  | .literal _ => by
    intro _ h
    obtain ⟨v, hv, rfl⟩ := literal_compile_ok.1 h
    rw [Expr.direct, hv]
    exact .pure v
  | .name x => by
    intro _ h
    obtain ⟨-, rfl⟩ := name_compile_ok.1 h
    rw [Expr.direct, Scope.term]
    cases hx : scope.resolve? x with
    | none => exact Eval.read_agrees (resolve?_eq_innermost? scope x ▸ hx)
    | some y => exact Eval.get_agrees (resolve?_lt hs hn hx) (resolve?_eq_innermost? scope x ▸ hx)
  | .member target _ => by
    intro _ h
    obtain ⟨-, e, he, rfl⟩ := member_compile_ok.1 h
    exact .bind (Expr.direct_agrees hs hn target e he) fun _ => .pure _
  | .index target position => by
    intro _ h
    obtain ⟨e, i, he, hi, rfl⟩ := index_compile_ok.1 h
    exact .bind (Expr.direct_agrees hs hn target e he) fun _ =>
      .bind (Expr.direct_agrees hs hn position i hi) fun _ => .pure _
  | .call target _ args => by
    intro _ h
    obtain ⟨-, e, es, he, hes, rfl⟩ := call_compile_ok.1 h
    exact .bind (Expr.direct_agrees hs hn target e he) fun _ =>
      .bind (Expr.directArgs_agrees hs hn args es hes) fun _ => Eval.ofExcept_agrees _
  | .unary _ operand => by
    intro _ h
    rcases unary_compile_ok.1 h with ⟨op, e, ho, he, rfl⟩ | ⟨op, x, y, ho, rfl, -, hy, rfl⟩
    · rw [Expr.direct, ho]
      exact .bind (Expr.direct_agrees hs hn operand e he) fun _ => Eval.ofExcept_agrees _
    · rw [Expr.direct, ho]
      exact Eval.update_agrees hs.distinct (resolve?_lt hs hn hy) (resolve?_eq_innermost? scope x ▸ hy) op
  | .binary _ left right => by
    intro _ h
    obtain ⟨op, l, r, ho, hl, hr, rfl⟩ := binary_compile_ok.1 h
    rw [Expr.direct, ho]
    refine .bind (Expr.direct_agrees hs hn left l hl) fun v => ?_
    split
    · exact .pure v
    · exact .bind (Expr.direct_agrees hs hn right r hr) fun _ => Eval.ofExcept_agrees _
  | .conditional condition ifTrue ifFalse => by
    intro _ h
    obtain ⟨c, a, b, hc, ha, hb, rfl⟩ := conditional_compile_ok.1 h
    refine .bind (Expr.direct_agrees hs hn condition c hc) fun v => ?_
    split
    · exact Expr.direct_agrees hs hn ifTrue a ha
    · exact Expr.direct_agrees hs hn ifFalse b hb

theorem Expr.directArgs_agrees (hs : scope.Sound) (hn : scope.count ≤ n) :
    ∀ (es : List Expr) (ts : List Term), (Expr.compileArgs scope es).result = .ok ts →
      Agrees (Shown n scope.frames) (Shown n scope.frames) (Term.evalArgs model ts) (Expr.directArgs model es)
  | [] => by
    intro _ h
    cases h
    exact .pure []
  | e :: rest => by
    intro _ h
    obtain ⟨t, more, ht, hm, rfl⟩ := compileArgs_cons_ok.1 h
    exact .bind (Expr.direct_agrees hs hn e t ht) fun _ =>
      .bind (Expr.directArgs_agrees hs hn rest more hm) fun _ => .pure _

end

end Expressions

/-! ## Parts of a run -/

/-- The machine as a render by name sees it. -/
def Machine.named (frames : List (List Local)) (m : Machine) : Direct.State :=
  ⟨view frames m.slots, m.model, m.output, m.iterations⟩

/-- The machine has `n` slots, and the render by name is in the state that it shows. -/
def Shows (n : Nat) (frames : List (List Local)) (m : Machine) (state : Direct.State) : Prop :=
  m.slots.size = n ∧ state = m.named frames

section Parts
variable {n : Nat} {scope : Scope} {frame : List Local} {frames outer : List (List Local)} {x : String} {y : Local}

theorem Exec.eval_agrees {α : Type} {frames' : List (List Local)} {run : Value → Eval α}
    {run' : Value → Direct.Eval α} (h : ∀ model, Agrees (Shown n frames) (Shown n frames') (run model) (run' model)) :
    Agrees (Shows n frames) (Shows n frames') (Exec.eval run) (Direct.Exec.eval run') := by
  rintro m _ ⟨hm, rfl⟩
  have hr := h m.model m.slots _ ⟨hm, rfl⟩
  simp only [Exec.eval, Direct.Exec.eval, Machine.named]
  cases hx : run m.model m.slots <;> cases hy : run' m.model (view frames m.slots) <;>
    simp_all [Shown, Shows, Machine.named]

theorem Term.run_agrees (hs : scope.Sound) (hn : scope.count ≤ n) {e : Expr} {t : Term}
    (he : (e.compile scope).result = .ok t) :
    Agrees (Shows n scope.frames) (Shows n scope.frames) t.run e.runDirect :=
  Exec.eval_agrees fun _ => Expr.direct_agrees hs hn e t he

/-- Expressions compiled before a name was declared do not see its slot, nor the name when it is hidden. -/
theorem Term.run_agrees_hiding (hs : scope.Sound) (hn : scope.count ≤ n) (hf : scope.frames = frame :: outer)
    {e : Expr} {t : Term} (he : (e.compile scope).result = .ok t) (x : String) :
    Agrees (Shows n (scope.declare x).2.frames) (Shows n (scope.declare x).2.frames) t.run e.runHiding := by
  refine Exec.eval_agrees fun model => ?_
  rintro slots _ ⟨hsize, rfl⟩
  have hagree : Agrees (Shown n scope.frames) (Shown n scope.frames) (t.eval model) (e.direct model) :=
    Expr.direct_agrees hs hn e t he
  have hr := hagree slots _ ⟨hsize, rfl⟩
  -- the term cannot reach the hidden slot, so the name comes back with the value it had
  have hrange := Term.inRange_of_resolved hs.below t (Expr.compile_resolved he)
  have hk := Term.eval_untouched hrange model slots[scope.count]? slots rfl
  rw [declare_frames x hf]
  rw [hf] at hr
  simp only [view, List.map_cons, Direct.Eval.hiding] at hr ⊢
  cases hx : t.eval model slots <;>
    cases hy : e.direct model (frame.map (Local.binding slots) :: outer.map (List.map (Local.binding slots))) <;>
    simp_all [Shown, view, Direct.Frames.bind, Local.binding, Local.value]

theorem write_agrees (s : String) : Agrees (Shows n frames) (Shows n frames) (Exec.write s) (Direct.Exec.write s) := by
  rintro m _ ⟨hm, rfl⟩
  exact ⟨rfl, hm, rfl⟩

theorem tick_agrees (limit : Option UInt64) :
    Agrees (Shows n frames) (Shows n frames) (Exec.tick limit) (Direct.Exec.tick limit) := by
  rintro m _ ⟨hm, rfl⟩
  cases limit with
  | none => exact ⟨rfl, hm, rfl⟩
  | some limit =>
    rw [Exec.tick_some]
    by_cases hl : limit.toNat < m.iterations + 1
    · have hl' : ¬m.iterations + 1 ≤ limit.toNat := by omega
      simp [Direct.Exec.tick, Machine.named, hl, hl']
    · have hl' : m.iterations + 1 ≤ limit.toNat := by omega
      simp [Direct.Exec.tick, Machine.named, hl, hl', Shows, hm]

theorem ofExcept_agrees {α : Type} (r : Except Fault α) :
    Agrees (Shows n frames) (Shows n frames) (Exec.ofExcept r) (Direct.Exec.ofExcept r) := by
  cases r with
  | ok a => exact .pure a
  | error f => exact .throw _

theorem eval_set_ok {s : Nat} {m : Machine} (h : s < m.slots.size) (v : Value) :
    Exec.eval (fun _ => Eval.set s v) m = .ok () { m with slots := m.slots.setIfInBounds s v } := by
  simp [Exec.eval, Eval.set, h]

/-- A slot that is not seen shows as a new binding once it is named. -/
theorem view_cons_set (h : ∀ z ∈ (frame :: outer).flatten, z.slot ≠ y.slot) {slots : Slots}
    (hlt : y.slot < slots.size) (v : Value) :
    view ((y :: frame) :: outer) (slots.setIfInBounds y.slot v) =
      Direct.Frames.bind y.name v (view (frame :: outer) slots) := by
  have hv : view (frame :: outer) (slots.setIfInBounds y.slot v) = view (frame :: outer) slots :=
    view_set_of_unseen h v
  simp only [view, List.map_cons, List.cons.injEq] at hv
  simp only [view, List.map_cons, Direct.Frames.bind, hv.1, hv.2, Local.binding, Local.value_set_self hlt]

/-- A new variable is a new binding of its name. -/
theorem declare_agrees (hs : scope.Sound) (hn : scope.count < n) (hf : scope.frames = frame :: outer) (v : Value) :
    Agrees (Shows n scope.frames) (Shows n (scope.declare x).2.frames)
      (Exec.eval fun _ => Eval.set scope.count v) (Direct.Exec.bind x v) := by
  rintro m _ ⟨rfl, rfl⟩
  have hunseen := hs.unseen (Nat.le_refl scope.count)
  rw [hf] at hunseen
  have hv := view_cons_set (y := ⟨scope.count, x⟩) hunseen hn v
  rw [eval_set_ok hn]
  rw [declare_frames x hf, hf]
  refine ⟨rfl, by simp, ?_⟩
  simp [Machine.named, hv]

theorem assign_eq_bind (hx : innermost? frames.flatten x = none) (v : Value) (slots : Slots) :
    Direct.Frames.assign x v (view frames slots) = Direct.Frames.bind x v (view frames slots) := by
  simp [Direct.Frames.assign, value?_view, hx]

theorem assign_eq_rebind (hy : innermost? frames.flatten x = some y) (v : Value) (slots : Slots) :
    Direct.Frames.assign x v (view frames slots) = Direct.Frames.rebind x v (view frames slots) := by
  simp [Direct.Frames.assign, value?_view, hy]

theorem declare_agrees_assign (hs : scope.Sound) (hn : scope.count < n) (hf : scope.frames = frame :: outer)
    (hx : scope.resolve? x = none) (v : Value) :
    Agrees (Shows n scope.frames) (Shows n (scope.declare x).2.frames)
      (Exec.eval fun _ => Eval.set scope.count v) (Direct.Exec.assign x v) := by
  rw [resolve?_eq_innermost?] at hx
  rintro m _ ⟨hm, rfl⟩
  have hr := declare_agrees (x := x) hs hn hf v m _ ⟨hm, rfl⟩
  have heq : Direct.Exec.assign x v (m.named scope.frames) = Direct.Exec.bind x v (m.named scope.frames) := by
    simp only [Direct.Exec.assign, Direct.Exec.bind, Machine.named, modify, modifyGet, MonadStateOf.modifyGet,
      EStateM.modifyGet, assign_eq_bind hx]
  rw [heq]
  exact hr

theorem assign_agrees (hd : (frames.flatten.map Local.slot).Nodup) (hlt : y.slot < n)
    (hy : innermost? frames.flatten x = some y) (v : Value) :
    Agrees (Shows n frames) (Shows n frames) (Exec.eval fun _ => Eval.set y.slot v) (Direct.Exec.assign x v) := by
  rintro m _ ⟨rfl, rfl⟩
  rw [eval_set_ok hlt]
  refine ⟨rfl, by simp, ?_⟩
  simp [Machine.named, assign_eq_rebind hy, view_rebind hd hlt hy]

theorem store_variable {m : Machine} (h : y.slot < m.slots.size) (path : List String) (v : Value) :
    Exec.store ⟨.variable y, path⟩ v m =
      match v.store path (y.value m.slots) with
      | .ok updated => .ok () { m with slots := m.slots.setIfInBounds y.slot updated }
      | .error fault => .error (.fault (.invalidAssignment (".".intercalate (y.name :: path)) fault)) m := by
  have hget : Exec.eval (fun _ => Eval.get y.slot) m = .ok (y.value m.slots) m := by
    simp [Exec.eval, Eval.get, Local.getElem?_slot h]
  refine (bind_of_ok hget).trans ?_
  cases v.store path (y.value m.slots) with
  | ok updated => exact eval_set_ok h updated
  | error fault => rfl

theorem store_model {m : Machine} (name : String) (path : List String) (v : Value) :
    Exec.store ⟨.model name, path⟩ v m =
      match storeModel v name path m.model with
      | .ok updated => .ok () { m with model := updated }
      | .error fault => .error (.fault (.invalidAssignment (".".intercalate (("$" ++ name) :: path)) fault)) m := by
  have hget : (get : Exec Machine) m = .ok m m := rfl
  refine (bind_of_ok hget).trans ?_
  cases storeModel v name path m.model <;> rfl

theorem store_agrees (hs : scope.Sound) (hn : scope.count ≤ n) (root : String) (path : List String) (v : Value) :
    Agrees (Shows n scope.frames) (Shows n scope.frames) (Exec.store ⟨scope.root root, path⟩ v)
      (Direct.Exec.store root path v) := by
  rintro m _ ⟨rfl, rfl⟩
  unfold Scope.root
  cases hy : scope.resolve? root with
  | none =>
    rw [resolve?_eq_innermost?] at hy
    simp only [store_model, Direct.Exec.store, Machine.named, value?_view, hy, Option.map_none]
    cases storeModel v root path m.model <;> simp [Shows, Machine.named]
  | some y =>
    have hlt := resolve?_lt hs hn hy
    rw [resolve?_eq_innermost?] at hy
    have hname : y.name = root := by simpa using List.find?_some hy
    simp only [store_variable hlt, Direct.Exec.store, Machine.named, value?_view, hy, Option.map_some]
    cases v.store path (y.value m.slots) <;>
      simp [Shows, Machine.named, hname, view_rebind hs.distinct hlt hy]

/-! ### Frames that open and close -/

theorem Eval.reset_ok {locals : List Nat} {slots : Slots} (hl : ∀ s ∈ locals, s < slots.size) :
    ∃ slots' : Slots, Eval.reset locals slots = .ok () slots' ∧ slots'.size = slots.size ∧
      ∀ s, slots'[s]? = if s ∈ locals then some .undefined else slots[s]? := by
  induction locals generalizing slots with
  | nil => exact ⟨slots, rfl, rfl, by simp⟩
  | cons l rest ih =>
    have hlt := hl l (by simp)
    have hset : Eval.set l .undefined slots = .ok () (slots.setIfInBounds l .undefined) := by
      simp [Eval.set, hlt]
    have hrest : ∀ s ∈ rest, s < (slots.setIfInBounds l .undefined).size :=
      fun s hs => by simpa using hl s (by simp [hs])
    obtain ⟨slots', hr, hsize, hget⟩ := ih hrest
    refine ⟨slots', ?_, by simpa using hsize, fun s => ?_⟩
    · rw [Eval.reset, bind_of_ok hset, hr]
    · rw [hget s]
      by_cases hs : s ∈ rest
      · simp [hs]
      · by_cases he : s = l
        · subst he
          simp [hs, hlt]
        · simp [hs, he, Array.getElem?_setIfInBounds_ne (Ne.symm he)]

/-- Resetting slots that are not seen opens an empty frame. -/
theorem reset_agrees {locals : List Nat} (hs : scope.Sound) (hl : ∀ s ∈ locals, scope.count ≤ s ∧ s < n) :
    Agrees (Shows n scope.frames)
      (fun m state => Shows n scope.push.frames m state ∧ ∀ s ∈ locals, m.slots[s]? = some .undefined)
      (Exec.eval fun _ => Eval.reset locals) (Direct.Exec.push []) := by
  rintro m _ ⟨rfl, rfl⟩
  obtain ⟨slots', hr, hsize, hget⟩ := Eval.reset_ok fun s hs => (hl s hs).2
  have hv : view scope.frames slots' = view scope.frames m.slots := by
    refine view_congr fun z hz => ?_
    have hz' : z.slot ∉ locals := fun hm => hs.unseen (hl _ hm).1 z hz rfl
    rw [hget, if_neg hz']
  have hx : Exec.eval (fun _ => Eval.reset locals) m = .ok () { m with slots := slots' } := by
    simp [Exec.eval, hr]
  rw [hx]
  refine ⟨rfl, ⟨hsize, ?_⟩, fun s hs => by simp [hget, hs]⟩
  change Direct.State.mk ([] :: view scope.frames m.slots) _ _ _ = ⟨[] :: view scope.frames slots', _, _, _⟩
  rw [hv]
  rfl

theorem pop_shows {m : Machine} {state : Direct.State} (h : Shows n (frame :: frames) m state) :
    ∃ state', Direct.Exec.pop state = .ok () state' ∧ Shows n frames m state' := by
  obtain ⟨hm, rfl⟩ := h
  exact ⟨m.named frames, rfl, hm, rfl⟩

/-- An `each` item in its slot is a frame of its own. -/
theorem item_agrees (hs : scope.Sound) (hn : scope.count < n) (item : Value) :
    Agrees (Shows n scope.frames) (Shows n (scope.push.declare x).2.frames)
      (Exec.eval fun _ => Eval.set scope.count item) (Direct.Exec.push [(x, item)]) := by
  rintro m _ ⟨rfl, rfl⟩
  have hv := view_cons_set (y := ⟨scope.count, x⟩) (hs.push.unseen (Nat.le_refl scope.count)) hn item
  rw [eval_set_ok hn]
  refine ⟨rfl, by simp, ?_⟩
  simp only [Machine.named, declare_frames x (rfl : scope.push.frames = [] :: scope.frames)]
  change _ = Direct.State.mk (view ([⟨scope.count, x⟩] :: scope.frames) _) _ _ _
  rw [hv]
  rfl

end Parts

end Stencil
