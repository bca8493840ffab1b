import Mathlib
import Stencil.Proofs.Relocation
/-!
# Loop variables under other names

`EachRenamed` gives the loop variable of one `each` in a template another name, there and in the body of the
loop. The body compiles as before, but for the names of the variables that it introduces
(`each_renamed_compiled`). The rest of the template does not see them: those outside are in other slots, and
those inside are gone when the loop is closed (`RenamedBetween`). A program with other names for its variables
runs as before, and only messages show the names (`renamed_rendersLike`).
-/

namespace Stencil

/-! ## Renamed loops -/

/-- The second part is the first with `y` for the variable `x` of one `each`, where `y` is no name in its body. -/
inductive EachRenamed (x y : String) : Part → Part → Prop
  | here {fresh collection body} : isIdentifier y → y ∉ Segment.bareNamesAll body →
      EachRenamed x y (.statement fresh (.each x collection body))
        (.statement fresh (.each y collection (Segment.renameAll (Function.update id x y) body)))
  | when {fresh condition body body'} : EachRenamed x y (.body body) (.body body') →
      EachRenamed x y (.statement fresh (.when condition body)) (.statement fresh (.when condition body'))
  | chosen {fresh condition body body' otherwise} : EachRenamed x y (.body body) (.body body') →
      EachRenamed x y (.statement fresh (.choose condition body otherwise))
        (.statement fresh (.choose condition body' otherwise))
  | otherwise {fresh condition body otherwise otherwise'} : EachRenamed x y (.body otherwise) (.body otherwise') →
      EachRenamed x y (.statement fresh (.choose condition body otherwise))
        (.statement fresh (.choose condition body otherwise'))
  | initial {fresh initial initial' condition increment body} :
      EachRenamed x y (.statement true initial) (.statement true initial') →
      EachRenamed x y (.statement fresh (.loop initial condition increment body))
        (.statement fresh (.loop initial' condition increment body))
  | update {fresh initial condition increment increment' body} :
      EachRenamed x y (.increment increment) (.increment increment') →
      EachRenamed x y (.statement fresh (.loop initial condition increment body))
        (.statement fresh (.loop initial condition increment' body))
  | round {fresh initial condition increment body body'} : EachRenamed x y (.body body) (.body body') →
      EachRenamed x y (.statement fresh (.loop initial condition increment body))
        (.statement fresh (.loop initial condition increment body'))
  | item {fresh name collection body body'} : EachRenamed x y (.body body) (.body body') →
      EachRenamed x y (.statement fresh (.each name collection body)) (.statement fresh (.each name collection body'))
  | switch {fresh subject body body'} : EachRenamed x y (.body body) (.body body') →
      EachRenamed x y (.statement fresh (.switch subject body)) (.statement fresh (.switch subject body'))
  | increment {s s'} : EachRenamed x y (.segment s) (.segment s') → EachRenamed x y (.increment s) (.increment s')
  | body {l l'} : EachRenamed x y (.segments l) (.segments l') → EachRenamed x y (.body l) (.body l')
  | statement {s s'} : EachRenamed x y (.statement false s) (.statement false s') →
      EachRenamed x y (.segment (.statement s)) (.segment (.statement s'))
  | block {l l'} : EachRenamed x y (.body l) (.body l') →
      EachRenamed x y (.segment (.block l)) (.segment (.block l'))
  | inTag {name attributes attributes' space selfClosing children} :
      EachRenamed x y (.attributes attributes) (.attributes attributes') →
      EachRenamed x y (.segment (.element name attributes space selfClosing children))
        (.segment (.element name attributes' space selfClosing children))
  | inside {name attributes space selfClosing children children'} :
      EachRenamed x y (.segments children) (.segments children') →
      EachRenamed x y (.segment (.element name attributes space selfClosing children))
        (.segment (.element name attributes space selfClosing children'))
  | head {s s' rest} : EachRenamed x y (.segment s) (.segment s') →
      EachRenamed x y (.segments (s :: rest)) (.segments (s' :: rest))
  | tail {s rest rest'} : EachRenamed x y (.segments rest) (.segments rest') →
      EachRenamed x y (.segments (s :: rest)) (.segments (s :: rest'))
  | valued {name value value'} : EachRenamed x y (.segments value) (.segments value') →
      EachRenamed x y (.attribute (.valued name value)) (.attribute (.valued name value'))
  | first {a a' rest} : EachRenamed x y (.attribute a) (.attribute a') →
      EachRenamed x y (.attributes (a :: rest)) (.attributes (a' :: rest))
  | later {a rest rest'} : EachRenamed x y (.attributes rest) (.attributes rest') →
      EachRenamed x y (.attributes (a :: rest)) (.attributes (a :: rest'))

/-- Some variables named `x` are named `y`, and all stay in their slots. -/
def Renamed (x y : String) (var : Local → Local) : Prop :=
  ∀ z, var z = z ∨ z.name = x ∧ var z = ⟨z.slot, y⟩

theorem Renamed.slot {x y : String} {var : Local → Local} (h : Renamed x y var) (z : Local) :
    (var z).slot = z.slot := by
  rcases h z with heq | ⟨-, heq⟩ <;> rw [heq]

/-! ## Variables that come and go between two scopes -/

/-- Variables can be told apart by their slots, and there is a frame to declare them in. -/
structure Scope.Open (scope : Scope) : Prop where
  sound : scope.Sound
  inside : scope.frames ≠ []

/-- The renamed variables are introduced after the first scope, and none of them is visible in the second. -/
structure RenamedBetween (x y : String) (var : Local → Local) (scope scope' : Scope) : Prop where
  renamed : Renamed x y var
  before : ∀ z, z.slot < scope.count → var z = z
  after : ∀ z, scope'.count ≤ z.slot → var z = z
  visible : ∀ z ∈ scope'.frames.flatten, var z = z

section Scopes
variable {x y : String} {var : Local → Local} {scope scope₁ scope₂ : Scope} {part : Part} {steps : List Step}

theorem Scope.eq_of_frames (hf : scope₁.frames = scope₂.frames) (hc : scope₁.count = scope₂.count) :
    scope₁ = scope₂ := by
  cases scope₁
  cases scope₂
  simp_all

theorem Scope.Open.push (h : scope.Open) : scope.push.Open := ⟨h.sound.push, by simp [Scope.push]⟩

theorem Scope.Open.declare (h : scope.Open) (x : String) : (scope.declare x).2.Open := by
  refine ⟨h.sound.declare x, ?_⟩
  obtain ⟨frame, outer, hf⟩ := List.ne_nil_iff_exists_cons.1 h.inside
  simp [declare_frames x hf]

theorem Compiled.keepsOpen (hc : Compiled scope part steps scope₁) (h : scope.Open) : scope₁.Open := by
  refine ⟨hc.sound h.sound, ?_⟩
  obtain ⟨frame, outer, hf⟩ := List.ne_nil_iff_exists_cons.1 h.inside
  simp [hc.frames hf]

/-- What is visible after a part was visible before it or has a new slot. -/
theorem Compiled.visible (hc : Compiled scope part steps scope₁) (h : scope.Open) {z : Local}
    (hz : z ∈ scope₁.frames.flatten) : z ∈ scope.frames.flatten ∨ scope.count ≤ z.slot := by
  obtain ⟨frame, outer, hf⟩ := List.ne_nil_iff_exists_cons.1 h.inside
  rw [hc.binders hf, List.mem_append, List.mem_reverse] at hz
  rcases hz with hnew | hold
  · exact .inr (hc.introduced.mem.1 (Step.declaredAll_introduced hnew)).1
  · exact .inl hold

theorem RenamedBetween.none (scope scope' : Scope) : RenamedBetween x y id scope scope' :=
  ⟨fun _ => .inl rfl, fun _ _ => rfl, fun _ _ => rfl, fun _ _ => rfl⟩

theorem RenamedBetween.widen (hv : RenamedBetween x y var scope₁ scope₂) (hle : scope.count ≤ scope₁.count) :
    RenamedBetween x y var scope scope₂ where
  renamed := hv.renamed
  before z hz := hv.before z (Nat.lt_of_lt_of_le hz hle)
  after := hv.after
  visible := hv.visible

/-- What is compiled before the renamed variables come does not change. -/
theorem RenamedBetween.earlier (hv : RenamedBetween x y var scope₁ scope₂) (hc : Compiled scope part steps scope₁)
    (h : scope.Open) :
    RenamedBetween x y var scope scope₂ ∧ Compiled scope part (Step.mapAll (.variables var) steps) scope₁ := by
  have hle := hc.introduced.le
  have hsame : Step.mapAll (.variables var) steps = steps := by
    refine Compiled.mapAll_eq_self hv.renamed.slot hc h.inside (fun z hz => ?_) fun z _ hz => hv.before z hz
    exact hv.before z (Nat.lt_of_lt_of_le (h.sound.below z hz) hle)
  rw [hsame]
  exact ⟨hv.widen hle, hc⟩

/-- What is compiled after the renamed variables are gone does not change. -/
theorem RenamedBetween.later (hv : RenamedBetween x y var scope scope₁) (hc : Compiled scope₁ part steps scope₂)
    (h : scope₁.Open) :
    RenamedBetween x y var scope scope₂ ∧ Compiled scope₁ part (Step.mapAll (.variables var) steps) scope₂ := by
  have hsame : Step.mapAll (.variables var) steps = steps :=
    Compiled.mapAll_eq_self hv.renamed.slot hc h.inside hv.visible fun z hz _ => hv.after z hz
  rw [hsame]
  refine ⟨⟨hv.renamed, hv.before, fun z hz => hv.after z (Nat.le_trans hc.introduced.le hz), fun z hz => ?_⟩, hc⟩
  rcases hc.visible h hz with hold | hnew
  · exact hv.visible z hold
  · exact hv.after z hnew

/-- Closing a frame that was opened before the renamed variables came. -/
theorem RenamedBetween.pop (hv : RenamedBetween x y var scope.push scope₁) {frame : List Local}
    (hf : scope₁.frames = frame :: scope.frames) : RenamedBetween x y var scope scope₁.pop.2 where
  renamed := hv.renamed
  before := hv.before
  after z hz := hv.after z (by rwa [Scope.pop_count] at hz)
  visible z hz := by
    rw [(pop_of_frames hf).2] at hz
    refine hv.visible z ?_
    rw [hf, List.flatten_cons]
    exact List.mem_append_right frame hz

theorem RenamedBetween.term_before (hv : RenamedBetween x y var scope scope₁) (h : scope.Open) {e : Expr} {t : Term}
    (ht : (e.compile scope).result = .ok t) : (e.compile scope).result = .ok (t.replace var .model) := by
  rwa [Expr.replace_eq_self hv.renamed.slot ht h.inside fun z hz => hv.before z (h.sound.below z hz)]

theorem RenamedBetween.term_after (hv : RenamedBetween x y var scope scope₁) (h : scope₁.Open) {e : Expr} {t : Term}
    (ht : (e.compile scope₁).result = .ok t) : (e.compile scope₁).result = .ok (t.replace var .model) := by
  rwa [Expr.replace_eq_self hv.renamed.slot ht h.inside hv.visible]

end Scopes

/-! ## The renamed loop -/

/-- `y` for `x` as the name of variables in the slots from `first` up to `next`. -/
def Local.renameWithin (x y : String) (first next : Nat) (z : Local) : Local :=
  if first ≤ z.slot ∧ z.slot < next ∧ z.name = x then ⟨z.slot, y⟩ else z

section Loop
variable {x y : String} {first next : Nat} {scope scope' : Scope} {body : List Segment} {b : Block}

theorem Local.renameWithin_renamed : Renamed x y (Local.renameWithin x y first next) := by
  intro z
  unfold Local.renameWithin
  by_cases h : first ≤ z.slot ∧ z.slot < next ∧ z.name = x
  · exact .inr ⟨h.2.2, if_pos h⟩
  · exact .inl (if_neg h)

theorem Local.renameWithin_inside {s : Nat} (hf : first ≤ s) (hn : s < next) (name : String) :
    Local.renameWithin x y first next ⟨s, name⟩ = ⟨s, Function.update id x y name⟩ := by
  unfold Local.renameWithin
  by_cases h : name = x
  · rw [if_pos ⟨hf, hn, h⟩, h, Function.update_self]
  · rw [if_neg fun hc => h hc.2.2, Function.update_of_ne h]
    rfl

theorem Local.renameWithin_outside {z : Local} (h : z.slot < first ∨ next ≤ z.slot) :
    Local.renameWithin x y first next z = z := by
  refine if_neg fun hc => ?_
  omega

/-- Other names than `y` stay apart, and variables that are introduced within the slots follow them. -/
theorem renameWithin_fits (hy : isIdentifier y) :
    (Relabelling.still (Function.update id x y) (Local.renameWithin x y first next)
      Local.renameWithin_renamed.slot).Fits (· ≠ y) first next := by
  refine ⟨fun name other hname hother heq => ?_, fun name _ hid => ?_, fun s name hs hs' _ => ?_⟩
  · change Function.update id x y name = Function.update id x y other at heq
    by_cases h : name = x <;> by_cases h' : other = x <;> simp_all [Function.update_of_ne]
  · change isIdentifier (Function.update id x y name)
    by_cases h : name = x
    · rwa [h, Function.update_self]
    · rwa [Function.update_of_ne h]
  · exact Local.renameWithin_inside hs hs' name

/-- With the loop variable under either name, the scopes have all other names in common. -/
theorem declare_relabelled (ho : scope.Open) (hlt : scope.count < next) :
    Relabelled (.still (Function.update id x y) (Local.renameWithin x y scope.count next)
      Local.renameWithin_renamed.slot) (· ≠ y) (scope.push.declare x).2 (scope.push.declare y).2 where
  inside := (ho.push.declare x).inside
  inside' := (ho.push.declare y).inside
  count := by simp [Relabelling.still]
  resolve name hname := by
    have hx := Local.renameWithin_inside (x := x) (y := y) (Nat.le_refl scope.count) hlt x
    change (scope.push.declare y).2.resolve? (Function.update id x y name) =
      ((scope.push.declare x).2.resolve? name).map (Local.renameWithin x y scope.count next)
    simp only [resolve?_eq_innermost?, declare_binders, innermost?, List.find?_cons, push_binders, Scope.push_count]
    by_cases hnx : name = x
    · subst hnx
      simp [hx]
    · have hne : (x == name) = false := by simpa using Ne.symm hnx
      have hne' : (y == name) = false := by simpa using Ne.symm hname
      simp only [Function.update_of_ne hnx, id_eq, hne, hne']
      -- what the loop does not declare is as old as the scope around it
      cases hz : scope.frames.flatten.find? (·.name == name) with
      | none => rfl
      | some z =>
        have hlt := ho.sound.below z (List.mem_of_find?_eq_some hz)
        rw [Option.map_some, Local.renameWithin_outside (.inl hlt)]
  unbound name _ hn := by
    refine Function.update_of_ne ?_ _ _
    rintro rfl
    simp [resolve?_eq_innermost?, declare_binders, innermost?] at hn

theorem each_renamed_compiled {fresh : Bool} {collection : Expr} {c : Term} (hy : isIdentifier y)
    (hbody : y ∉ Segment.bareNamesAll body) (ho : scope.Open) (hc : (collection.compile scope).result = .ok c)
    (hb : Compiled (scope.push.declare x).2 (.body body) [.block b] scope') :
    ∃ var, RenamedBetween x y var scope scope'.pop.2 ∧
      Compiled scope (.statement fresh (.each y collection (Segment.renameAll (Function.update id x y) body)))
        (Step.mapAll (.variables var) [.each ⟨scope.count, x⟩ c b]) scope'.pop.2 := by
  have hle := hb.introduced.le
  rw [declare_count, Scope.push_count] at hle
  have hframes := pop_of_frames (hb.frames (declare_frames x rfl))
  have fits : (Relabelling.still (Function.update id x y) (Local.renameWithin x y scope.count scope'.count)
      Local.renameWithin_renamed.slot).Fits (· ≠ y) (scope.push.declare x).2.count scope'.count :=
    (renameWithin_fits hy).mono (by simp) (Nat.le_refl _)
  have hnames : ∀ name ∈ (Part.body body).bareNames, name ≠ y := by
    rintro _ hname rfl
    exact hbody hname
  have hlt : scope.count < scope'.count := by omega
  obtain ⟨target, hb', htarget⟩ := hb.relabel hnames fits (declare_relabelled ho hlt)
  rw [Relabelling.still_mapping] at hb'
  -- both loops close their frames to the same scope
  have hpop : target.pop.2 = scope'.pop.2 := by
    have hcount : target.count = scope'.count := htarget.count
    have hframes' := pop_of_frames (hb'.frames (declare_frames y rfl))
    exact Scope.eq_of_frames (hframes'.2.trans hframes.2.symm) (by rw [Scope.pop_count, Scope.pop_count, hcount])
  have hv : RenamedBetween x y (Local.renameWithin x y scope.count scope'.count) scope scope'.pop.2 := by
    refine ⟨Local.renameWithin_renamed, fun z hz => ?_, fun z hz => ?_, fun z hz => ?_⟩
    · exact Local.renameWithin_outside (.inl hz)
    · rw [Scope.pop_count] at hz
      exact Local.renameWithin_outside (.inr hz)
    · rw [hframes.2] at hz
      exact Local.renameWithin_outside (.inl (ho.sound.below z hz))
  refine ⟨_, hv, ?_⟩
  change Compiled scope _ [.each (Local.renameWithin x y scope.count scope'.count ⟨scope.count, x⟩)
    (c.replace _ .model) (b.map _)] _
  rw [Local.renameWithin_inside (Nat.le_refl _) hlt, Function.update_self, ← hpop]
  exact .each hy (hv.term_before ho hc) hb'

end Loop

/-! ## The rest of the template -/

/-- A template with a renamed loop compiles as before, with other names for variables of that loop. -/
theorem EachRenamed.compiled {x y : String} {part part' : Part} (h : EachRenamed x y part part') {scope scope' : Scope}
    {steps : List Step} (hc : Compiled scope part steps scope') (ho : scope.Open) :
    ∃ var, RenamedBetween x y var scope scope' ∧ Compiled scope part' (Step.mapAll (.variables var) steps) scope' := by
  induction h generalizing scope scope' steps with
  | here hy hbody =>
    cases hc with
    | each hx hcoll hb => exact each_renamed_compiled hy hbody ho hcoll hb
  | when _ ih =>
    cases hc with
    | when hcond hb =>
      obtain ⟨var, hv, hb'⟩ := ih hb ho
      exact ⟨var, hv, .when (hv.term_before ho hcond) hb'⟩
  | chosen _ ih =>
    cases hc with
    | choose hcond hb hother =>
      obtain ⟨var, hv, hb'⟩ := ih hb ho
      obtain ⟨hv', hother'⟩ := hv.later hother (hb.keepsOpen ho)
      exact ⟨var, hv', .choose (hv.term_before ho hcond) hb' hother'⟩
  | otherwise _ ih =>
    cases hc with
    | choose hcond hb hother =>
      obtain ⟨var, hv, hother'⟩ := ih hother (hb.keepsOpen ho)
      obtain ⟨hv', hb'⟩ := hv.earlier hb ho
      exact ⟨var, hv', .choose (hv'.term_before ho hcond) hb' hother'⟩
  | initial _ ih =>
    cases hc with
    | loop hi hcond hu hb =>
      have ho₁ := hi.keepsOpen ho.push
      have ho₂ := hu.keepsOpen ho₁
      obtain ⟨var, hv, hi'⟩ := ih hi ho.push
      obtain ⟨hv₂, hu'⟩ := hv.later hu ho₁
      obtain ⟨hv₃, hb'⟩ := hv₂.later hb ho₂
      exact ⟨var, hv₃.pop (hb.frames (hu.frames (hi.frames rfl))), .loop hi' (hv.term_after ho₁ hcond) hu' hb'⟩
  | update _ ih =>
    cases hc with
    | loop hi hcond hu hb =>
      have ho₁ := hi.keepsOpen ho.push
      obtain ⟨var, hv, hu'⟩ := ih hu ho₁
      obtain ⟨hv₀, hi'⟩ := hv.earlier hi ho.push
      obtain ⟨hv₃, hb'⟩ := hv₀.later hb (hu.keepsOpen ho₁)
      exact ⟨var, hv₃.pop (hb.frames (hu.frames (hi.frames rfl))), .loop hi' (hv.term_before ho₁ hcond) hu' hb'⟩
  | round _ ih =>
    cases hc with
    | loop hi hcond hu hb =>
      have ho₁ := hi.keepsOpen ho.push
      obtain ⟨var, hv, hb'⟩ := ih hb (hu.keepsOpen ho₁)
      obtain ⟨hv₁, hu'⟩ := hv.earlier hu ho₁
      obtain ⟨hv₀, hi'⟩ := hv₁.earlier hi ho.push
      exact ⟨var, hv₀.pop (hb.frames (hu.frames (hi.frames rfl))), .loop hi' (hv₁.term_before ho₁ hcond) hu' hb'⟩
  | @item _ name _ _ _ _ ih =>
    cases hc with
    | @each _ scope₁ _ _ _ _ c b hx hcoll hb =>
      have hf := hb.frames (declare_frames name rfl)
      obtain ⟨var, hv, hb'⟩ := ih hb (ho.push.declare name)
      have hv' : RenamedBetween _ _ var scope scope₁.pop.2 := (hv.widen (by simp)).pop hf
      have hkept : var ⟨scope.count, name⟩ = ⟨scope.count, name⟩ := hv.before _ (by simp)
      refine ⟨var, hv', ?_⟩
      change Compiled scope _ [.each (var ⟨scope.count, name⟩) (c.replace var .model) (b.map _)] _
      rw [hkept]
      exact .each hx (hv'.term_before ho hcoll) hb'
  | switch _ ih =>
    cases hc with
    | switch hsubject hb =>
      obtain ⟨var, hv, hb'⟩ := ih hb ho
      exact ⟨var, hv, .switch (hv.term_before ho hsubject) hb'⟩
  | increment h ih =>
    cases hc with
    | evaluate ht => cases h
    | update hs =>
      obtain ⟨var, hv, hs'⟩ := ih (.statement hs) ho
      cases h with
      | statement =>
        cases hs' with
        | statement hs' => exact ⟨var, hv, .update hs'⟩
  | body _ ih =>
    cases hc with
    | body hl =>
      obtain ⟨var, hv, hl'⟩ := ih hl ho.push
      refine ⟨var, hv.pop (hl.frames rfl), ?_⟩
      have hb' := Compiled.body hl'
      rwa [joinWrites_mapAll] at hb'
  | statement _ ih =>
    cases hc with
    | statement hs =>
      obtain ⟨var, hv, hs'⟩ := ih hs ho
      exact ⟨var, hv, .statement hs'⟩
  | block _ ih =>
    cases hc with
    | block hb =>
      obtain ⟨var, hv, hb'⟩ := ih hb ho
      exact ⟨var, hv, .block hb'⟩
  | inTag _ ih =>
    cases hc with
    | closed hn hsp ha =>
      obtain ⟨var, hv, ha'⟩ := ih ha ho
      refine ⟨var, hv, ?_⟩
      simpa [Step.mapAll, Step.map] using Compiled.closed hn hsp ha'
    | element hn hsp ha hl =>
      obtain ⟨var, hv, ha'⟩ := ih ha ho
      obtain ⟨hv', hl'⟩ := hv.later hl (ha.keepsOpen ho)
      refine ⟨var, hv', ?_⟩
      simpa [Step.mapAll, Step.map] using Compiled.element hn hsp ha' hl'
  | inside _ ih =>
    cases hc with
    | closed hn hsp ha =>
      -- what is inside a tag that closes itself is not compiled
      obtain ⟨hv, ha'⟩ := (RenamedBetween.none scope' scope').earlier ha ho
      refine ⟨id, hv, ?_⟩
      simpa [Step.mapAll, Step.map] using Compiled.closed hn hsp ha'
    | element hn hsp ha hl =>
      obtain ⟨var, hv, hl'⟩ := ih hl (ha.keepsOpen ho)
      obtain ⟨hv', ha'⟩ := hv.earlier ha ho
      refine ⟨var, hv', ?_⟩
      simpa [Step.mapAll, Step.map] using Compiled.element hn hsp ha' hl'
  | head _ ih =>
    cases hc with
    | cons hs hr =>
      obtain ⟨var, hv, hs'⟩ := ih hs ho
      obtain ⟨hv', hr'⟩ := hv.later hr (hs.keepsOpen ho)
      refine ⟨var, hv', ?_⟩
      rw [mapAll_append]
      exact .cons hs' hr'
  | tail _ ih =>
    cases hc with
    | cons hs hr =>
      obtain ⟨var, hv, hr'⟩ := ih hr (hs.keepsOpen ho)
      obtain ⟨hv', hs'⟩ := hv.earlier hs ho
      refine ⟨var, hv', ?_⟩
      rw [mapAll_append]
      exact .cons hs' hr'
  | valued _ ih =>
    cases hc with
    | valued hn hl =>
      obtain ⟨var, hv, hl'⟩ := ih hl ho
      refine ⟨var, hv, ?_⟩
      simpa [Step.mapAll, Step.map] using Compiled.valued hn hl'
  | first _ ih =>
    cases hc with
    | moreAttributes hs hr =>
      obtain ⟨var, hv, hs'⟩ := ih hs ho
      obtain ⟨hv', hr'⟩ := hv.later hr (hs.keepsOpen ho)
      refine ⟨var, hv', ?_⟩
      rw [mapAll_append]
      exact .moreAttributes hs' hr'
  | later _ ih =>
    cases hc with
    | moreAttributes hs hr =>
      obtain ⟨var, hv, hr'⟩ := ih hr (hs.keepsOpen ho)
      obtain ⟨hv', hs'⟩ := hv.earlier hs ho
      refine ⟨var, hv', ?_⟩
      rw [mapAll_append]
      exact .moreAttributes hs' hr'

theorem EachRenamed.compile_ok {x y : String} {t t' : List Segment} {program : Program}
    (h : EachRenamed x y (.segments t) (.segments t')) (ht : (compile t).result = .ok program) :
    ∃ var, Renamed x y var ∧ (compile t').result = .ok (program.map (.variables var)) := by
  obtain ⟨steps, scope, hc, rfl⟩ := compile_ok_iff.1 ht
  have ho : Scope.empty.push.Open := ⟨⟨List.nodup_nil, by simp [Scope.empty, Scope.push]⟩, by simp [Scope.push]⟩
  obtain ⟨var, hv, hc'⟩ := h.compiled hc ho
  refine ⟨var, hv.renamed, compile_ok_iff.2 ⟨_, scope, hc', ?_⟩⟩
  rw [joinWrites_mapAll]
  rfl

/-! ## Runs with other names -/

/-- The same fault, or `y` for `x` as the variable that an update or a store fails on. -/
inductive Fault.Renamed (x y : String) : Fault → Fault → Prop
  | same (f : Fault) : Fault.Renamed x y f f
  | update (op : UpdateOp) (found : Kind) : Fault.Renamed x y (.invalidUpdate op x found) (.invalidUpdate op y found)
  | store (path : List String) (fault : PlaceFault) :
      Fault.Renamed x y (.invalidAssignment (".".intercalate (x :: path)) fault)
        (.invalidAssignment (".".intercalate (y :: path)) fault)

section Runs
variable {x y : String} {var : Local → Local}

theorem store_renamed_agrees (h : Renamed x y var) (target : Place) (v : Value) :
    AgreesUpTo (Halt.UpTo (Fault.Renamed x y)) (Besides Eq) (Besides Eq) (Exec.store target v)
      (Exec.store (target.relabel var) v) := by
  have same := Halt.upTo_self (F := Fault.Renamed x y) .same
  obtain ⟨z | name, path⟩ := target
  · refine store_variable_besides same (h.slot z) (fun fault => ?_) v
    rcases h z with heq | ⟨hz, heq⟩
    · rw [heq]
      exact same _
    · subst hz
      rw [heq]
      exact .store path fault
  · refine store_model_besides ?_
    rintro model _ rfl
    cases storeModel v name path model with
    | ok updated => rfl
    | error fault => exact same _

theorem renamed_rendersLike (h : Renamed x y var) (program : Program) (options : Options) (model : Value) :
    program.RendersLike (Fault.Renamed x y) (program.map (.variables var)) options model := by
  have same := Halt.upTo_self (F := Fault.Renamed x y) .same
  have hterm (e : Term) (a b : Value) (hab : a = b) : AgreesUpTo (Halt.UpTo (Fault.Renamed x y)) Eq Eq (e.eval a)
      ((e.replace var .model).eval b) := by
    subst hab
    refine Term.replace_agrees_besides (N := fun _ => True) same h.slot (fun op z found => ?_) (fun _ _ => .pure _) e
      fun _ _ => trivial
    rcases h z with heq | ⟨hz, heq⟩
    · rw [heq]
      exact same _
    · subst hz
      rw [heq]
      exact .update op found
  have matched : Matched (Halt.UpTo (Fault.Renamed x y)) (.variables var) (Besides Eq) options.iterationLimit
      (fun _ => True) (fun _ => True) (fun _ => True) :=
    besides_matched same h.slot (fun _ => rfl) (fun e _ => hterm e)
      (fun target v _ => store_renamed_agrees h target v) _
  have every : program.body.Every (fun _ => True) (fun _ => True) (fun _ => True) :=
    Block.every_of_forall (fun _ => trivial) (fun _ => trivial) (fun _ => trivial) program.body
  exact Program.rendersLike_of_rounds fun rounds => Program.map_renders matched every rfl rounds

end Runs

/--
With another name for the variable of one `each`, a template compiles to the same program but for names of
variables; and the two programs render alike, but for the name of the variable in the messages of failed updates
and stores.
-/
theorem each_renamed_renders {t t' : List Segment} {program : Program} {x y : String}
    (ht : (compile t).result = .ok program) (h : EachRenamed x y (.segments t) (.segments t')) :
    ∃ var : Local → Local, (∀ z, var z = z ∨ z.name = x ∧ var z = ⟨z.slot, y⟩) ∧
      (compile t').result = .ok (program.map (.variables var)) ∧
      ∀ options model, program.RendersLike (Fault.Renamed x y) (program.map (.variables var)) options model := by
  obtain ⟨var, hv, ht'⟩ := h.compile_ok ht
  exact ⟨var, hv, ht', renamed_rendersLike hv program⟩

/-- The body of a loop with the variable `x`, which is rebound, updated, shadowed twice and stored into. -/
def rebinding (x : String) : List Segment := [
  .statement (.assign (.name x) (.member (.name x) "next")),
  .statement (.loop (.assign (.name x) (.literal "0")) (.binary "<" (.name x) (.literal "2"))
    (.expr (.unary "++" (.name x))) [.expr (.name x)]),
  .statement (.each x (.name x) [.expr (.name x)]),
  .statement (.assign (.member (.name x) "row") (.name "row"))]

/-- A loop with the variable `x` within another, with a name of the model after it that may be the same. -/
def nestedLoops (x : String) : List Segment := [
  .statement (.each "row" (.name "rows") [
    .statement (.each x (.name "row") (rebinding x)),
    .expr (.name "i")])]

theorem each_renamed_renders_nestedLoops : ∃ program, (compile (nestedLoops "i")).result = .ok program ∧
    EachRenamed "i" "k" (.segments (nestedLoops "i")) (.segments (nestedLoops "k")) ∧
    ∃ var : Local → Local, (∀ z, var z = z ∨ z.name = "i" ∧ var z = ⟨z.slot, "k"⟩) ∧
      (compile (nestedLoops "k")).result = .ok (program.map (.variables var)) ∧
      ∀ options model, program.RendersLike (Fault.Renamed "i" "k") (program.map (.variables var)) options model := by
  have hbody : Segment.renameAll (Function.update id "i" "k") (rebinding "i") = rebinding "k" := by
    simp [rebinding, Segment.renameAll, Segment.rename, Statement.rename, Target.rename, Expr.rename, Function.update]
  have hloop : EachRenamed "i" "k" (.statement false (.each "i" (.name "row") (rebinding "i")))
      (.statement false (.each "k" (.name "row") (rebinding "k"))) := by
    rw [← hbody]
    exact .here (by decide) (by decide)
  have h : EachRenamed "i" "k" (.segments (nestedLoops "i")) (.segments (nestedLoops "k")) :=
    .head (.statement (.item (.body (.head (.statement hloop)))))
  obtain ⟨program, ht⟩ : ∃ program, (compile (nestedLoops "i")).result = .ok program := ⟨_, rfl⟩
  exact ⟨program, ht, h, each_renamed_renders ht h⟩

end Stencil
