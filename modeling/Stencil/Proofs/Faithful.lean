import Mathlib
import Stencil.Proofs.Agreement
/-!
# Compiled programs render as their templates do by name

A part of a template and the steps compiled from it, run from states that look alike, end alike
(`Compiled.agrees`). The rules for late names differ just where a loop's update declares a variable
(`Step.NoLate`).
-/

namespace Stencil

/-! ## Steps of a block -/

theorem runAll_append (options : Options) (rounds : Nat) (a b : List Step) :
    Step.runAll options rounds (a ++ b) =
      Step.runAll options rounds a >>= fun _ => Step.runAll options rounds b := by
  induction a with
  | nil => rfl
  | cons step a ih => simp [Step.runAll, ih]

theorem runAll_nil (options : Options) (rounds : Nat) : Step.runAll options rounds [] = pure () := rfl

theorem runAll_write (options : Options) (rounds : Nat) (s : String) (rest : List Step) :
    Step.runAll options rounds (.write s :: rest) =
      Exec.write s >>= fun _ => Step.runAll options rounds rest := rfl

theorem runAll_singleton (options : Options) (rounds : Nat) (step : Step) :
    Step.runAll options rounds [step] = step.run options rounds := by
  simp [Step.runAll]

theorem write_append (s t : String) : (do Exec.write s; Exec.write t) = Exec.write (s ++ t) := by
  funext m
  change EStateM.Result.ok () { m with output := m.output ++ s ++ t } = _
  rw [String.append_assoc]
  rfl

theorem write_empty : Exec.write "" = pure () := by
  funext m
  change EStateM.Result.ok () { m with output := m.output ++ "" } = _
  rw [String.append_empty]
  rfl

/-- Joined writes write the same. -/
theorem runAll_joinWrites (options : Options) (rounds : Nat) (steps : List Step) :
    Step.runAll options rounds (joinWrites steps) = Step.runAll options rounds steps := by
  fun_induction joinWrites steps with
  | case1 => rfl
  | case2 s rest t joined h ih =>
    rw [h] at ih
    simp only [Step.runAll, Step.run] at ih ⊢
    rw [← ih, ← write_append, bind_assoc]
  | case3 rest _ ih => 
    simp only [Step.runAll, Step.run, write_empty, pure_bind, ih]
  | case4 s rest _ _ ih => simp only [Step.runAll, ih]
  | case5 step rest _ ih => simp only [Step.runAll, ih]

/-! ## Late names -/

mutual

/-- No loop's update declares a variable. -/
def Step.NoLate : Step → Prop
  | .block body | .when _ body | .switch _ body | .each _ _ body => body.NoLate
  | .choose _ body otherwise => body.NoLate ∧ otherwise.NoLate
  | .loop _ initial _ update body => update.declared = [] ∧ initial.NoLate ∧ update.NoLate ∧ body.NoLate
  | _ => True

def Block.NoLate : Block → Prop
  | .mk _ steps => Step.NoLateAll steps

def Step.NoLateAll : List Step → Prop
  | [] => True
  | step :: rest => step.NoLate ∧ Step.NoLateAll rest

end

@[simp] theorem noLateAll_append (a b : List Step) :
    Step.NoLateAll (a ++ b) ↔ Step.NoLateAll a ∧ Step.NoLateAll b := by
  induction a with
  | nil => simp [Step.NoLateAll]
  | cons step a ih => simp [Step.NoLateAll, ih, and_assoc]

theorem noLateAll_joinWrites (steps : List Step) :
    Step.NoLateAll (joinWrites steps) = Step.NoLateAll steps := by
  refine joinWrites_eq Step.NoLateAll (fun s rest => ?_) (fun step a b h => ?_) steps
  · simp [Step.NoLateAll, Step.NoLate]
  · simp [Step.NoLateAll, h]

/-- An update that declares is an assignment to a name not seen before. -/
theorem Compiled.late {scope scope' : Scope} {increment : Segment} {u : Step}
    (h : Compiled scope (.increment increment) [u] scope') (hu : u.declared ≠ []) :
    ∃ x value e, increment = .statement (.assign (.name x) value) ∧ scope.resolve? x = none ∧
      (value.compile scope).result = .ok e ∧ u = .declare ⟨scope.count, x⟩ e ∧ scope' = (scope.declare x).2 := by
  cases h with
  | evaluate => exact (hu rfl).elim
  | update h =>
    cases h with
    | declare he hx hf => exact ⟨_, _, _, rfl, hf.resolve_left (by decide), he, rfl, rfl⟩
    | _ => exact (hu rfl).elim

/-- An update that does not declare assigns to visible names only. -/
theorem Compiled.not_late {scope scope' : Scope} {x : String} {value : Expr} {u : Step}
    (h : Compiled scope (.increment (.statement (.assign (.name x) value))) [u] scope') (hu : u.declared = []) :
    ∃ y, scope.resolve? x = some y := by
  cases h with
  | update h =>
    cases h with
    | declare => simp [Step.declared] at hu
    | assign _ _ hy => exact ⟨_, hy⟩

/-! ## Loops -/

/-- A part rendered by name. -/
def Part.direct (rule : Direct.LoopRule) (options : Options) (rounds : Nat) : Part → Direct.Exec Unit
  | .statement fresh s => s.direct rule options rounds fresh
  | .increment (.expr e) => discard e.runDirect
  | .increment (.statement s) => s.direct rule options rounds false
  | .increment _ => pure ()
  | .body l => Direct.Exec.inFrame [] (Segment.directAll rule options rounds l)
  | .segment s => s.direct rule options rounds
  | .segments l => Segment.directAll rule options rounds l
  | .attribute a => a.direct rule options rounds
  | .attributes l => Attribute.directAll rule options rounds l

section Loops
variable {rule : Direct.LoopRule} {options : Options} {rounds n : Nat}

theorem pop_fresh {scope : Scope} {steps : List Step} {outer : List (List Local)} {first next : Nat}
    (hf : scope.frames = (Step.declaredAll steps).reverse :: outer)
    (hi : Consecutive first (Step.introducedAll steps) next) : ∀ s ∈ scope.pop.1, first ≤ s ∧ s < next := by
  intro s hs
  rw [(pop_of_frames hf).1] at hs
  simp only [List.mem_reverse, List.mem_map] at hs
  obtain ⟨x, hx, rfl⟩ := hs
  exact hi.mem.1 (Step.declaredAll_introduced hx)

theorem block_agrees {scope scope' : Scope} {l : List Segment} {steps : List Step} {run : Direct.Exec Unit}
    (hs : scope.Sound) (hl : Compiled scope.push (.segments l) steps scope') (hn : scope'.count ≤ n)
    (h : Agrees (Shows n scope.push.frames) (Shows n scope'.frames) (Step.runAll options rounds steps) run) :
    Agrees (Shows n scope.frames) (Shows n scope.frames)
      ((Block.mk scope'.pop.1 (joinWrites steps)).run options rounds) (Direct.Exec.inFrame [] run) := by
  have hf : scope'.frames = (Step.declaredAll steps).reverse :: scope.frames := by simpa using hl.frames rfl
  have hfresh : ∀ s ∈ scope'.pop.1, scope.count ≤ s ∧ s < n := fun s hs => by
    have := pop_fresh hf hl.introduced s hs
    rw [Scope.push_count] at this
    omega
  rw [Block.run, runAll_joinWrites]
  refine .bind (reset_agrees hs hfresh) fun _ => Agrees.andThen (h.weaken fun _ _ h => h.1) fun m state hm => ?_
  rw [hf] at hm
  exact pop_shows hm

/-- Binding a late name shows the slot that the loop's head has reset. -/
theorem late_shows {scope : Scope} {frame : List Local} {outer : List (List Local)} (x : String)
    (hf : scope.frames = frame :: outer) {m : Machine} {state : Direct.State}
    (h : Shows n scope.frames m state ∧ m.slots[scope.count]? = some .undefined) :
    ∃ state', Direct.Exec.bind x .undefined state = .ok () state' ∧ Shows n (scope.declare x).2.frames m state' := by
  obtain ⟨⟨hm, rfl⟩, hslot⟩ := h
  refine ⟨m.named (scope.declare x).2.frames, ?_, hm, rfl⟩
  rw [declare_frames x hf, hf]
  simp [Direct.Exec.bind, modify, modifyGet, MonadStateOf.modifyGet, EStateM.modifyGet, Machine.named, view,
    Direct.Frames.bind, Local.binding, Local.value, hslot]

theorem late?_none {scope scope' : Scope} {increment : Segment} {u : Step}
    (hu : Compiled scope (.increment increment) [u] scope') (hd : u.declared = []) {m : Machine}
    {state : Direct.State} (h : Shows n scope.frames m state) : rule.late? increment state = .ok none state := by
  obtain ⟨-, rfl⟩ := h
  unfold Direct.LoopRule.late?
  split
  · obtain ⟨y, hy⟩ := hu.not_late hd
    rw [resolve?_eq_innermost?] at hy
    simp [Machine.named, value?_view, hy]
  · rfl

theorem late?_some {scope : Scope} {x : String} {value : Expr} (hx : scope.resolve? x = none) {m : Machine}
    {state : Direct.State} (h : Shows n scope.frames m state) :
    Direct.LoopRule.lexical.late? (.statement (.assign (.name x) value)) state = .ok (some (x, value)) state := by
  obtain ⟨-, rfl⟩ := h
  rw [resolve?_eq_innermost?] at hx
  simp [Direct.LoopRule.late?, Machine.named, value?_view, hx]

section Head
variable {scope scope₁ scope₂ scope₃ : Scope} {initial : Statement} {condition : Expr} {increment : Segment}
  {body : List Segment} {i u : Step} {c : Term} {b : Block}

/-- Rounds of a loop that has no late name. -/
theorem rounds_agree (hs : scope₁.Sound) (hn : scope₁.count ≤ n) (hc : (condition.compile scope₁).result = .ok c)
    {update : Direct.Exec Unit} (hf₂ : scope₂.frames = scope₁.frames) (hf₃ : scope₃.frames = scope₁.frames)
    (au : Agrees (Shows n scope₁.frames) (Shows n scope₂.frames) (u.run options rounds) update)
    (ab : Agrees (Shows n scope₂.frames) (Shows n scope₃.frames) (b.run options rounds)
      (Direct.Exec.inFrame [] (Segment.directAll rule options rounds body))) :
    Agrees (Shows n scope₁.frames) (Shows n scope₁.frames)
      (Exec.loop (do return (← c.run).isTruthy)
        (do Exec.tick options.iterationLimit; b.run options rounds; u.run options rounds) rounds)
      (Direct.Exec.loop (do return (← condition.runDirect).isTruthy)
        (do
          Direct.Exec.tick options.iterationLimit
          Direct.Exec.inFrame [] (Segment.directAll rule options rounds body)
          update) rounds) := by
  rw [hf₂] at au ab
  rw [hf₃] at ab
  exact Exec.loop_agrees (.bind (Term.run_agrees hs hn hc) fun _ => .pure _)
    (.bind (tick_agrees _) fun _ => .bind ab fun _ => au) rounds

/-- Rounds of a loop with a late name, which its condition and its update do not see. -/
theorem rounds_agree_late {frame : List Local} {outer : List (List Local)} {x : String} {value : Expr} {e : Term}
    (hs : scope₁.Sound) (hn : scope₁.count < n) (hf : scope₁.frames = frame :: outer)
    (hc : (condition.compile scope₁).result = .ok c) (he : (value.compile scope₁).result = .ok e)
    (hf₃ : scope₃.frames = (scope₁.declare x).2.frames)
    (ab : Agrees (Shows n (scope₁.declare x).2.frames) (Shows n scope₃.frames) (b.run options rounds)
      (Direct.Exec.inFrame [] (Segment.directAll rule options rounds body))) :
    Agrees (Shows n (scope₁.declare x).2.frames) (Shows n (scope₁.declare x).2.frames)
      (Exec.loop (do return (← c.run).isTruthy)
        (do
          Exec.tick options.iterationLimit
          b.run options rounds
          (Step.declare ⟨scope₁.count, x⟩ e).run options rounds) rounds)
      (Direct.Exec.loop (do return (← condition.runHiding).isTruthy)
        (do
          Direct.Exec.tick options.iterationLimit
          Direct.Exec.inFrame [] (Segment.directAll rule options rounds body)
          Direct.Exec.assign x (← value.runHiding)) rounds) := by
  rw [hf₃] at ab
  have hs' := hs.declare x
  have hx : innermost? (scope₁.declare x).2.frames.flatten x = some ⟨scope₁.count, x⟩ := by
    simp [declare_frames x hf, innermost?]
  have hle := Nat.le_of_lt hn
  refine Exec.loop_agrees (.bind (Term.run_agrees_hiding hs hle hf hc x) fun _ => .pure _)
    (.bind (tick_agrees _) fun _ => .bind ab fun _ => ?_) rounds
  exact .bind (Term.run_agrees_hiding hs hle hf he x) fun v => assign_agrees hs'.distinct hn hx v

theorem loop_agrees (hs : scope.Sound) (hn : scope₃.count ≤ n)
    (hi : Compiled scope.push (.statement true initial) [i] scope₁) (hc : (condition.compile scope₁).result = .ok c)
    (hu : Compiled scope₁ (.increment increment) [u] scope₂) (hb : Compiled scope₂ (.body body) [.block b] scope₃)
    (ai : Agrees (Shows n scope.push.frames) (Shows n scope₁.frames) (i.run options rounds)
      (initial.direct rule options rounds true))
    (au : Agrees (Shows n scope₁.frames) (Shows n scope₂.frames) (u.run options rounds)
      ((Part.increment increment).direct rule options rounds))
    (ab : Agrees (Shows n scope₂.frames) (Shows n scope₃.frames) (b.run options rounds)
      (Direct.Exec.inFrame [] (Segment.directAll rule options rounds body)))
    (hrule : rule = .dynamic → u.declared = []) (fresh : Bool) :
    Agrees (Shows n scope.frames) (Shows n scope.frames)
      ((Step.loop scope₃.pop.1 i c u b).run options rounds)
      ((Statement.loop initial condition increment body).direct rule options rounds fresh) := by
  have hf₁ : scope₁.frames = i.declared :: scope.frames := by simpa using hi.frames rfl
  have hf₂ : scope₂.frames = (u.declared ++ i.declared) :: scope.frames := by simpa using hu.frames hf₁
  have hf₃ : scope₃.frames = (u.declared ++ i.declared) :: scope.frames := by
    simpa [Step.declared] using hb.frames hf₂
  have hiu : Consecutive scope.count (Step.introducedAll [i, u]) scope₂.count := by
    simpa [Step.introducedAll] using hi.introduced.append hu.introduced
  have hlt := hb.introduced.le
  have hs₁ := hi.sound hs.push
  have hfresh : ∀ s ∈ scope₃.pop.1, scope.count ≤ s ∧ s < n := fun s hs => by
    have := pop_fresh (by simpa using hf₃) hiu s hs
    omega
  rw [Step.run, Statement.direct, Direct.Exec.inFrame]
  refine .bind (reset_agrees hs hfresh) fun _ => ?_
  have hpop : ∀ m state, Shows n scope₂.frames m state →
      ∃ state', Direct.Exec.pop state = .ok () state' ∧ Shows n scope.frames m state' := fun m state h =>
    pop_shows (hf₂ ▸ h)
  -- the name is late just when the update declares it; only then do the rules differ
  by_cases hd : u.declared = []
  · rw [hd, List.nil_append, ← hf₁] at hf₂ hf₃
    rw [hf₂] at hpop
    refine Agrees.andThen (.bind (ai.weaken fun _ _ h => h.1) fun _ =>
      Agrees.skip (fun m state h => ⟨state, late?_none hu hd h, h⟩) ?_) hpop
    have hn₁ : scope₁.count ≤ n := by have := hu.introduced.le; omega
    cases hu with
    | evaluate ht => exact rounds_agree hs₁ hn₁ hc hf₂ hf₃ au ab
    | update _ => exact rounds_agree hs₁ hn₁ hc hf₂ hf₃ au ab
  · obtain ⟨x, value, e, rfl, hx, he, rfl, rfl⟩ := hu.late hd
    cases rule with
    | dynamic => exact (hd (hrule rfl)).elim
    | lexical =>
      have hn₁ : scope₁.count < n := by
        rw [declare_count] at hlt
        omega
      -- the head has reset the slot of the late name, and the initial step cannot reach it
      have hmem : scope₁.count ∈ scope₃.pop.1 := by
        rw [(pop_of_frames hf₃).1]
        simp [Step.declared]
      have hkeeps := Step.run_keeps (untouched_kept scope₁.count (some .undefined) options.iterationLimit) rounds i
        (hi.inRange hs.push.below rfl).1
      refine Agrees.andThen (.bind ((ai.keeping hkeeps).weaken fun _ _ h => ⟨h.1, h.2 _ hmem⟩) fun _ =>
        Agrees.skip (fun m state h => ⟨state, late?_some hx h.1, h⟩)
          (Agrees.skip (fun m state h => late_shows x hf₁ h) ?_)) hpop
      exact rounds_agree_late hs₁ hn₁ hf₁ hc he (hf₃.trans hf₂.symm) ab

end Head

end Loops

/-! ## Parts of a template -/

theorem Compiled.body_frames {scope scope' : Scope} {l : List Segment} {b : Block}
    (h : Compiled scope (.body l) [.block b] scope') {frame : List Local} {outer : List (List Local)}
    (hf : scope.frames = frame :: outer) : scope'.frames = scope.frames := by
  simpa [Step.declared, hf] using h.frames hf

/-- The steps of a part do what the part does by name. -/
theorem Compiled.agrees {rule : Direct.LoopRule} {options : Options} {rounds n : Nat} {scope scope' : Scope}
    {part : Part} {steps : List Step} (h : Compiled scope part steps scope') (hs : scope.Sound)
    {frame : List Local} {outer : List (List Local)} (hf : scope.frames = frame :: outer) (hn : scope'.count ≤ n)
    (hrule : rule = .dynamic → Step.NoLateAll steps) :
    Agrees (Shows n scope.frames) (Shows n scope'.frames) (Step.runAll options rounds steps)
      (part.direct rule options rounds) := by
  induction h generalizing frame outer with
  | store he hp =>
    obtain ⟨root, path, hchain, -, rfl⟩ := compilePlace_ok.1 hp
    rw [runAll_singleton, Part.direct, Statement.direct, hchain]
    exact .bind (Term.run_agrees hs hn he) fun v => store_agrees hs hn root path v
  | @declare scope x _ _ fresh he _ hx =>
    rw [declare_count] at hn
    rw [runAll_singleton, Part.direct, Statement.direct]
    refine .bind (Term.run_agrees hs (by omega) he) fun v => ?_
    cases fresh with
    | true => exact declare_agrees hs (by omega) hf v
    | false => exact declare_agrees_assign hs (by omega) hf (hx.resolve_left (by decide)) v
  | @assign scope x y _ _ he _ hy =>
    rw [runAll_singleton, Part.direct, Statement.direct]
    refine .bind (Term.run_agrees hs hn he) fun v => ?_
    exact assign_agrees hs.distinct (resolve?_lt hs hn hy) (resolve?_eq_innermost? scope x ▸ hy) v
  | when hc hb ih =>
    have hle := hb.introduced.le
    have ab := ih hs hf hn hrule
    -- a body leaves the frames as they were, so both sides agree also when it is not run
    rw [hb.body_frames hf] at ab ⊢
    rw [runAll_singleton] at ab ⊢
    rw [Part.direct, Statement.direct]
    refine .bind (Term.run_agrees hs (by omega) hc) fun v => ?_
    split
    · exact ab
    · exact .pure ()
  | choose hc hb ho ihb iho =>
    have hle := hb.introduced.le
    have hle' := ho.introduced.le
    have hfb := hb.body_frames hf
    have hrule' : rule = .dynamic → _ := fun h => (hrule h).1
    have ab := ihb hs hf (by omega) fun h => ⟨(hrule' h).1, trivial⟩
    have ao := iho (hb.sound hs) (hfb.trans hf) hn fun h => ⟨(hrule' h).2, trivial⟩
    rw [ho.body_frames (hfb.trans hf), hfb] at ao
    rw [ho.body_frames (hfb.trans hf), hfb]
    rw [hfb] at ab
    rw [runAll_singleton] at ab ao ⊢
    rw [Part.direct, Statement.direct]
    refine .bind (Term.run_agrees hs (by omega) hc) fun v => ?_
    split
    · exact ab
    · exact ao
  | @loop scope scope₁ scope₂ scope₃ fresh initial condition increment body i c u b hi hc hu hb ihi ihu ihb =>
    rw [Scope.pop_count] at hn
    have hle := hb.introduced.le
    have hle' := hu.introduced.le
    have hf₁ := hi.frames rfl
    have hf₂ := hu.frames hf₁
    have hs₁ := hi.sound hs.push
    have hs₂ := hu.sound hs₁
    have hrule' : rule = .dynamic → _ := fun h => (hrule h).1
    have ai := ihi hs.push rfl (by omega) fun h => ⟨(hrule' h).2.1, trivial⟩
    have au := ihu hs₁ hf₁ (by omega) fun h => ⟨(hrule' h).2.2.1, trivial⟩
    have ab := ihb hs₂ hf₂ hn fun h => ⟨(hrule' h).2.2.2, trivial⟩
    rw [runAll_singleton] at ai au ab ⊢
    rw [(pop_of_frames (hb.frames hf₂)).2]
    exact loop_agrees hs hn hi hc hu hb ai au ab (fun h => (hrule' h).1) fresh
  | @each scope scope' fresh x collection body c b _ hc hb ih =>
    rw [Scope.pop_count] at hn
    have hle := hb.introduced.le
    rw [declare_count, Scope.push_count] at hle
    have hf₁ : (scope.push.declare x).2.frames = [⟨scope.count, x⟩] :: scope.frames := declare_frames x rfl
    have ab := ih (hs.push.declare x) hf₁ hn hrule
    have hf₂ := hb.body_frames hf₁
    rw [hf₂] at ab
    rw [runAll_singleton] at ab ⊢
    rw [(pop_of_frames (hf₂.trans hf₁)).2, Part.direct, Statement.direct]
    refine .bind (Term.run_agrees hs (by omega) hc) fun v => .bind (ofExcept_agrees v.items) fun items => ?_
    refine .forM (fun item => .bind (tick_agrees _) fun _ => .bind (item_agrees hs (by omega) item) fun _ => ?_) items
    exact Agrees.andThen ab fun m state hm => pop_shows (hf₁ ▸ hm)
  | switch hc hb ih =>
    have hle := hb.introduced.le
    have ab := ih hs hf hn hrule
    rw [runAll_singleton] at ab ⊢
    exact .bind (Term.run_agrees hs (by omega) hc).discard fun _ => ab
  | label =>
    rw [runAll_singleton]
    exact .pure ()
  | guarded _ he =>
    rw [runAll_singleton]
    exact (Term.run_agrees hs hn he).discard
  | evaluate ht =>
    rw [runAll_singleton]
    exact (Term.run_agrees hs hn ht).discard
  | update _ ih | statement _ ih | block _ ih => exact ih hs hf hn hrule
  | body hl ih =>
    rw [Scope.pop_count] at hn
    have al := ih hs.push rfl hn fun h => by
      simpa [Step.NoLateAll, Step.NoLate, Block.NoLate, noLateAll_joinWrites] using hrule h
    rw [(pop_of_frames (hl.frames rfl)).2, runAll_singleton]
    exact block_agrees hs hl hn al
  | text =>
    rw [runAll_singleton]
    exact write_agrees _
  | emit ht =>
    rw [runAll_singleton]
    exact .bind (Term.run_agrees hs hn ht) fun v => write_agrees _
  | closed _ _ ha ih =>
    have aa := ih hs hf hn fun h => by simpa [Step.NoLateAll, Step.NoLate] using hrule h
    rw [Part.direct, Segment.direct, if_pos rfl]
    simp only [List.cons_append, List.append_assoc, List.nil_append, runAll_append, runAll_write, runAll_nil,
      bind_pure_unit]
    exact .bind (write_agrees _) fun _ => .bind aa fun _ => .bind (write_agrees _) fun _ => write_agrees _
  | element _ _ ha hc iha ihc =>
    have hle := hc.introduced.le
    have hrule' : rule = .dynamic → Step.NoLateAll _ ∧ Step.NoLateAll _ := fun h => by
      simpa [Step.NoLateAll, Step.NoLate] using hrule h
    have aa := iha hs hf (by omega) fun h => (hrule' h).1
    have ac := ihc (ha.sound hs) (ha.frames hf) hn fun h => (hrule' h).2
    rw [Part.direct, Segment.direct, if_neg (by decide)]
    simp only [List.cons_append, List.append_assoc, List.nil_append, runAll_append, runAll_write, runAll_nil,
      bind_pure_unit]
    exact .bind (write_agrees _) fun _ => .bind aa fun _ => .bind (write_agrees _) fun _ =>
      .bind (write_agrees _) fun _ => .bind ac fun _ => write_agrees _
  | nil | noAttributes => exact .pure ()
  | cons hh hr ihh ihr | moreAttributes hh hr ihh ihr =>
    have hle := hr.introduced.le
    have hrule' : rule = .dynamic → _ := fun h => (noLateAll_append _ _).1 (hrule h)
    rw [runAll_append]
    exact .bind (ihh hs hf (by omega) fun h => (hrule' h).1) fun _ =>
      ihr (hh.sound hs) (hh.frames hf) hn fun h => (hrule' h).2
  | flag =>
    rw [runAll_singleton]
    exact write_agrees _
  | valued _ hl ih =>
    have al := ih hs hf hn fun h => by simpa [Step.NoLateAll, Step.NoLate] using hrule h
    rw [Part.direct, Attribute.direct]
    simp only [List.cons_append, runAll_append, runAll_write, runAll_nil, bind_pure_unit]
    exact .bind (write_agrees _) fun _ => .bind al fun _ => write_agrees _

/-! ## Templates -/

theorem renderDirect_eq {rule : Direct.LoopRule} {segments : List Segment} {program : Program}
    (h : (compile segments).result = .ok program) (hrule : rule = .dynamic → program.body.NoLate)
    (options : Options) (rounds : Nat) (model : Value) :
    program.render options rounds model = renderDirect rule segments options rounds model := by
  obtain ⟨steps, scope, hs, rfl⟩ := compile_ok_iff.1 h
  have sound : Scope.empty.Sound := ⟨by simp [Scope.empty], by simp [Scope.empty]⟩
  have agree : Agrees (Shows scope.count Scope.empty.push.frames) (Shows scope.count scope.frames)
      (Step.runAll options rounds steps) (Segment.directAll rule options rounds segments) :=
    hs.agrees sound.push rfl (Nat.le_refl _) fun h => by
      simpa [Block.NoLate, noLateAll_joinWrites] using hrule h
  have run := block_agrees sound hs (Nat.le_refl _) agree
    (Program.start ⟨.mk scope.pop.1 (joinWrites steps), scope.count⟩ model) ⟨[], model, "", 0⟩
    ⟨by simp [Program.start], rfl⟩
  unfold Program.render renderDirect
  split at run
  · rename_i hx hy
    obtain ⟨-, -, rfl⟩ := run
    simp only [hx, hy, Machine.named]
  · rename_i hx hy
    simp only [hx, hy, run]
  · exact run.elim

/--
A compiled program renders as its template does by name, with the lexical rule for late names; and with
the dynamic rule as well when no update of a loop declares a variable, since then no name is late.
-/
theorem compile_renders_by_name {segments : List Segment} {program : Program}
    (h : (compile segments).result = .ok program) :
    (∀ options rounds model,
      program.render options rounds model = renderDirect .lexical segments options rounds model) ∧
      (program.body.NoLate → ∀ options rounds model,
        program.render options rounds model = renderDirect .dynamic segments options rounds model) :=
  ⟨renderDirect_eq h (by simp), fun hn => renderDirect_eq h fun _ => hn⟩

/-- A loop whose head shadows `s` and whose increment and inner `each` assign to that binding. -/
def shadowing : List Segment := [
  .statement (.assign (.name "s") (.literal "true")),
  .statement (.loop (.assign (.name "s") (.name "s")) (.name "s")
    (.statement (.assign (.name "s") (.literal "false"))) [
      .element "b" [] "" false [
        .statement (.each "v" (.name "items") [.statement (.assign (.name "s") (.name "v")), .expr (.name "s")])]]),
  .expr (.name "s")]

theorem compile_renders_shadowing_by_name : ∃ program,
    (compile shadowing).result = .ok program ∧ program.body.NoLate ∧
      (∀ options rounds model,
        program.render options rounds model = renderDirect .lexical shadowing options rounds model) ∧
      ∀ options rounds model,
        program.render options rounds model = renderDirect .dynamic shadowing options rounds model := by
  have noLate : (Block.mk [0] [
      .declare ⟨0, "s"⟩ (.const (.bool true)),
      .loop [1] (.declare ⟨1, "s"⟩ (.variable ⟨0, "s"⟩)) (.variable ⟨1, "s"⟩) (.assign ⟨1, "s"⟩ (.const (.bool false)))
        (.mk [] [
          .write "<b>",
          .each ⟨2, "v"⟩ (.model "items") (.mk [] [.assign ⟨1, "s"⟩ (.variable ⟨2, "v"⟩), .emit (.variable ⟨1, "s"⟩)]),
          .write "</b>"]),
      .emit (.variable ⟨0, "s"⟩)]).NoLate := by
    simp [Block.NoLate, Step.NoLateAll, Step.NoLate, Step.declared]
  refine ⟨⟨_, 3⟩, ?compiles, noLate, (compile_renders_by_name ?compiles).1,
    (compile_renders_by_name ?compiles).2 noLate⟩
  rfl

/-- A loop whose increment is the first to assign `x`, which its body reads. -/
def lateName : List Segment := [
  .statement (.loop (.assign (.name "i") (.literal "true")) (.name "i")
    (.statement (.assign (.name "x") (.literal "true")))
    [.expr (.name "x"), .statement (.assign (.name "i") (.literal "false"))])]

/-- The body of the loop sees its late name, still undefined, where the dynamic rule reads the model. -/
theorem lateName_hides_model : ∃ program,
    (compile lateName).result = .ok program ∧
      program.render ⟨"", none⟩ 2 (.object [("x", .string "m")]) = .ok "" ∧
      renderDirect .dynamic lateName ⟨"", none⟩ 2 (.object [("x", .string "m")]) = .ok "m" := by
  refine ⟨⟨.mk [] [.loop [0, 1] (.declare ⟨0, "i"⟩ (.const (.bool true))) (.variable ⟨0, "i"⟩)
    (.declare ⟨1, "x"⟩ (.const (.bool true)))
    (.mk [] [.emit (.variable ⟨1, "x"⟩), .assign ⟨0, "i"⟩ (.const (.bool false))])], 2⟩, ?_, ?_, ?_⟩
  · rfl
  · cbv
  · cbv

end Stencil
