import Mathlib
import Stencil.Proofs.Faithful
import Stencil.Proofs.Relocation
import Stencil.Proofs.Rounds
/-!
# Templates one after the other

The program of two templates in a row is the program of the first, followed by that of the second with its
slots shifted past those of the first. Shifted steps run on a machine that holds other slots and other text
around theirs as they run alone (`inside_matched`). What the first template leaves behind is then only
its text, so that the two render one after the other (`Program.render_append`).
-/

namespace Stencil

/-! ## Machines inside others -/

/-- What a machine may hold around the slots and the output of a run. -/
structure Surroundings where
  before : Slots
  after : Slots
  written : String
  rounds : Nat

/-- The slots of the second machine are the `n` slots of the first with others around them. -/
def SlotsInside (w : Surroundings) (n : Nat) (slots slots' : Slots) : Prop :=
  slots.size = n ∧ slots' = w.before ++ slots ++ w.after

def Machine.inside (w : Surroundings) (m : Machine) : Machine :=
  ⟨w.before ++ m.slots ++ w.after, m.model, w.written ++ m.output, w.rounds + m.iterations⟩

def Inside (w : Surroundings) (n : Nat) (m m' : Machine) : Prop := m.slots.size = n ∧ m' = m.inside w

section Terms
variable {w : Surroundings} {n slot : Nat} {model : Value}

theorem getElem?_inside {slots : Slots} (h : slot < slots.size) :
    (w.before ++ slots ++ w.after)[slot + w.before.size]? = slots[slot]? := by
  grind

theorem Eval.get_inside (h : slot < n) :
    Agrees (SlotsInside w n) (SlotsInside w n) (Eval.get slot) (Eval.get (slot + w.before.size)) := by
  rintro slots _ ⟨hsize, rfl⟩
  have hlt : slot < slots.size := hsize ▸ h
  unfold Eval.get
  rw [getElem?_inside hlt, Array.getElem?_eq_getElem hlt]
  exact ⟨rfl, hsize, rfl⟩

theorem Eval.set_inside (h : slot < n) (v : Value) :
    Agrees (SlotsInside w n) (SlotsInside w n) (Eval.set slot v) (Eval.set (slot + w.before.size) v) := by
  rintro slots _ ⟨hsize, rfl⟩
  have hlt : slot < slots.size := hsize ▸ h
  have hlt' : slot + w.before.size < (w.before ++ slots ++ w.after).size := by
    simp only [Array.size_append]
    omega
  unfold Eval.set
  rw [if_pos hlt, if_pos hlt']
  exact ⟨rfl, by simpa using hsize, by simp [hlt]⟩

theorem Eval.reset_inside {locals : List Nat} (h : ∀ s ∈ locals, s < n) :
    Agrees (SlotsInside w n) (SlotsInside w n) (Eval.reset locals) (Eval.reset (locals.map (· + w.before.size))) := by
  induction locals with
  | nil => exact .pure ()
  | cons s rest ih =>
    obtain ⟨hs, hr⟩ := List.forall_mem_cons.1 h
    exact .bind (Eval.set_inside hs _) fun _ => ih hr

theorem Term.shift_agrees (e : Term) (h : e.InRange n) :
    Agrees (SlotsInside w n) (SlotsInside w n) (e.eval model)
      ((e.replace (Local.shift w.before.size) .model).eval model) := by
  have leaves : MatchedLeaves Eq (SlotsInside w n) (Local.shift w.before.size) .model model model (·.slot < n)
      (·.slot < n) (fun _ => True) :=
    { same := fun _ => rfl
      get := fun _ hx => Eval.get_inside hx
      set := fun _ v hx => Eval.set_inside hx v
      update := fun _ _ _ _ => rfl
      model := fun _ _ => .pure _ }
  exact Term.replace_agrees leaves e h fun _ _ => trivial

end Terms

section Machines
variable {w : Surroundings} {n : Nat}

theorem Exec.eval_inside {α : Type} {x y : Value → Eval α}
    (h : ∀ model, Agrees (SlotsInside w n) (SlotsInside w n) (x model) (y model)) :
    Agrees (Inside w n) (Inside w n) (Exec.eval x) (Exec.eval y) := by
  rintro m _ ⟨hsize, rfl⟩
  have hxy := h m.model m.slots (m.inside w).slots ⟨hsize, rfl⟩
  have hm : (m.inside w).model = m.model := rfl
  simp only [Exec.eval, hm]
  cases hx : x m.model m.slots <;> cases hy : y m.model (m.inside w).slots <;>
    simp_all [Inside, SlotsInside, Machine.inside]

theorem store_inside {place : Place} (h : place.InRange n) (v : Value) :
    Agrees (Inside w n) (Inside w n) (Exec.store place v)
      (Exec.store (place.relabel (Local.shift w.before.size)) v) := by
  obtain ⟨x | name, path⟩ := place
  · have hx : x.slot < n := h
    change Agrees _ _ (Exec.store ⟨.variable x, path⟩ v) (Exec.store ⟨.variable (x.shift w.before.size), path⟩ v)
    rintro m _ ⟨hsize, rfl⟩
    have hlt : x.slot < m.slots.size := hsize ▸ hx
    have hlt' : (x.shift w.before.size).slot < (m.inside w).slots.size := by
      simp only [Machine.inside, Local.shift, Array.size_append]
      omega
    have hvalue : (x.shift w.before.size).value (m.inside w).slots = x.value m.slots :=
      congrArg (·.getD .undefined) (getElem?_inside hlt)
    rw [store_variable hlt, store_variable hlt', hvalue]
    cases v.store path (x.value m.slots) with
    | error fault => rfl
    | ok updated =>
      refine ⟨rfl, by simpa using hsize, ?_⟩
      simp [Machine.inside, Local.shift, hlt]
  · change Agrees _ _ (Exec.store ⟨.model name, path⟩ v) (Exec.store ⟨.model name, path⟩ v)
    rintro m _ ⟨hsize, rfl⟩
    have hm : (m.inside w).model = m.model := rfl
    rw [store_model, store_model, hm]
    cases storeModel v name path m.model with
    | error fault => rfl
    | ok updated => exact ⟨rfl, hsize, rfl⟩

/-- Steps run inside other slots and text as they run alone. -/
theorem inside_matched (w : Surroundings) (n : Nat) :
    Matched Eq (.shift w.before.size) (Inside w n) none (Term.InRange n) (· < n) (Place.InRange n) where
  same _ := rfl
  term e he := Exec.eval_inside fun _ => Term.shift_agrees e he
  set x v hx := Exec.eval_inside fun _ => Eval.set_inside hx v
  store _ v hp := store_inside hp v
  reset _ hl := Exec.eval_inside fun _ => Eval.reset_inside hl
  write s := by
    rintro m _ ⟨hsize, rfl⟩
    refine ⟨rfl, hsize, ?_⟩
    simp [Machine.inside, String.append_assoc]
  tick := by
    rintro m _ ⟨hsize, rfl⟩
    exact ⟨rfl, hsize, rfl⟩

end Machines

/-! ## Runs that leave the model alone -/

def Place.IsLocal (place : Place) : Prop :=
  match place.root with
  | .variable _ => True
  | .model _ => False

/-- No step of the block stores to the model. -/
def Block.StoresLocally (b : Block) : Prop := b.Every (fun _ => True) (fun _ => True) Place.IsLocal

theorem Exec.eval_keeps_model {α : Type} (run : Value → Eval α) (model : Value) :
    Keeps (fun m : Machine => m.model = model) (fun _ => True) (Exec.eval run) := by
  refine Exec.eval_keeps fun m hm slots _ => ?_
  cases run m.model slots with
  | ok a slots => exact hm
  | error halt slots => exact ⟨hm, trivial⟩

theorem model_kept (model : Value) (limit : Option UInt64) :
    Kept (fun m => m.model = model) (fun _ => True) limit (fun _ => True) (fun _ => True) Place.IsLocal where
  term e _ := Exec.eval_keeps_model e.eval model
  set s v _ := Exec.eval_keeps_model (fun _ => Eval.set s v) model
  store place v hp := by
    refine Exec.store_keeps (fun _ => trivial) (fun _ _ => Exec.eval_keeps_model _ model)
      (fun _ _ _ => Exec.eval_keeps_model _ model) (fun name hname => ?_) v
    simp [Place.IsLocal, hname] at hp
  write _ _ hm := hm
  tick := Exec.tick_keeps (fun _ => trivial) (fun _ hm => hm) limit
  notIterable _ := trivial
  exhausted := trivial

/-! ## Programs in a row -/

/-- At the start all slots are undefined, so that resetting some of them changes nothing. -/
theorem Program.run_start {program : Program} (h : program.InRange) (options : Options) (rounds : Nat) (model : Value) :
    program.body.run options rounds (program.start model) =
      Step.runAll options rounds program.body.steps (program.start model) := by
  obtain ⟨⟨locals, steps⟩, n⟩ := program
  have hl : ∀ s ∈ locals, s < n := h.1
  have hsize : ∀ s ∈ locals, s < (Array.replicate n Value.undefined).size := by simpa using hl
  obtain ⟨slots, hr, -, hget⟩ := Eval.reset_ok hsize
  have hslots : slots = Array.replicate n Value.undefined := by
    refine Array.ext_getElem? fun s => ?_
    rw [hget s]
    by_cases hs : s ∈ locals
    · simp [hs, hl s hs]
    · rw [if_neg hs]
  rw [hslots] at hr
  have hreset : Exec.eval (fun _ => Eval.reset locals) (Program.start ⟨.mk locals steps, n⟩ model) =
      .ok () (Program.start ⟨.mk locals steps, n⟩ model) := by
    simp [Exec.eval, Program.start, hr]
  exact bind_of_ok hreset

section Append
variable {a b : List Segment} {p q : Program}

/-- The program of the whole runs the first, then the second with its slots shifted past those of the first. -/
theorem compile_append_ok (ha : (compile a).result = .ok p) (hb : (compile b).result = .ok q)
    (hapart : ∀ x ∈ Step.declaredAll p.body.steps, x.name ∉ Segment.bareNamesAll b) :
    ∃ r, (compile (a ++ b)).result = .ok r ∧ r.slots = p.slots + q.slots ∧ ∀ options rounds,
      Step.runAll options rounds r.body.steps = (do
        Step.runAll options rounds p.body.steps
        Step.runAll options rounds (Step.mapAll (.shift p.slots) q.body.steps)) := by
  obtain ⟨steps, scope, hs, rfl⟩ := compile_ok_iff.1 ha
  obtain ⟨more, scope', hm, rfl⟩ := compile_ok_iff.1 hb
  have hframes : scope.frames = [(Step.declaredAll steps).reverse] := by simpa [Scope.empty] using hs.frames rfl
  have shifted : Relabelled (.shifting scope.count) (· ∈ Segment.bareNamesAll b) Scope.empty.push scope := by
    refine ⟨by simp [Scope.push], by simp [hframes], by simp [Scope.empty, Relabelling.shifting], fun x hx => ?_,
      fun _ _ _ => rfl⟩
    have unbound : ∀ y ∈ (Step.declaredAll steps).reverse, ¬(y.name == x) := by
      intro y hy heq
      rw [List.mem_reverse, ← declaredAll_joinWrites] at hy
      exact hapart y hy (beq_iff_eq.1 heq ▸ hx)
    change scope.resolve? x = none
    rw [resolve?_eq_innermost?, hframes, innermost?, List.flatten_singleton, List.find?_eq_none.2 unbound]
  obtain ⟨whole, hw, hshifted⟩ := hm.shift (fun _ hx => hx) shifted
  refine ⟨_, compile_ok_iff.2 ⟨_, whole, hs.append hw, rfl⟩, ?_, fun options rounds => ?_⟩
  · simp only [hshifted.count, Relabelling.shifting]
    omega
  · simp only [Block.steps, runAll_joinWrites, runAll_append, ← joinWrites_mapAll]

theorem compile_shift_zero (ha : (compile a).result = .ok p) : Step.mapAll (.shift 0) p.body.steps = p.body.steps := by
  obtain ⟨steps, scope, hs, rfl⟩ := compile_ok_iff.1 ha
  have still : Mapping.shift 0 = .variables (Local.shift 0) := by
    simp [Mapping.shift, Relabelling.mapping, Relabelling.shifting, Mapping.variables]
  have hsteps := Compiled.mapAll_eq_self (fun x => (rfl : (Local.shift 0 x).slot = x.slot)) hs (by simp [Scope.push])
    (fun _ _ => rfl) fun _ _ _ => rfl
  change Step.mapAll _ (joinWrites steps) = joinWrites steps
  rw [← joinWrites_mapAll, still, hsteps]

theorem Block.every_steps {term : Term → Prop} {slot : Nat → Prop} {place : Place → Prop} {body : Block}
    (h : body.Every term slot place) : Step.EveryAll term slot place body.steps := by
  obtain ⟨locals, steps⟩ := body
  exact h.2

/-- The first program takes no notice of slots after its own, and leaves the model as it is. -/
theorem first_agrees {options : Options} (hnone : options.iterationLimit = none) (hp : p.InRange)
    (hzero : Step.mapAll (.shift 0) p.body.steps = p.body.steps) (hlocal : p.body.StoresLocally) (rounds : Nat)
    (model : Value) (rest : Slots) :
    Agrees (fun m m' => Inside ⟨#[], rest, "", 0⟩ p.slots m m' ∧ m.model = model)
      (fun m m' => Inside ⟨#[], rest, "", 0⟩ p.slots m m' ∧ m.model = model)
      (Step.runAll options rounds p.body.steps) (Step.runAll options rounds p.body.steps) := by
  have matched := inside_matched ⟨#[], rest, "", 0⟩ p.slots
  have kept := model_kept model none
  rw [← hnone] at matched kept
  have agree := Step.mapAll_agrees matched rounds p.body.steps (Block.every_steps hp)
  change Agrees _ _ _ (Step.runAll _ _ (Step.mapAll (.shift 0) _)) at agree
  rw [hzero] at agree
  exact agree.keeping (Step.runAll_keeps kept rounds _ (Block.every_steps hlocal))

/-- The second program runs after the slots and the text of the first as it runs alone. -/
theorem second_agrees {options : Options} (hnone : options.iterationLimit = none) (hq : q.InRange) (rounds : Nat)
    (w : Surroundings) :
    Agrees (Inside w q.slots) (Inside w q.slots) (Step.runAll options rounds q.body.steps)
      (Step.runAll options rounds (Step.mapAll (.shift w.before.size) q.body.steps)) := by
  have matched := inside_matched w q.slots
  rw [← hnone] at matched
  exact Step.mapAll_agrees matched rounds q.body.steps (Block.every_steps hq)

theorem Program.render_append {r : Program} {options : Options} {rounds : Nat} (hnone : options.iterationLimit = none)
    (hp : p.InRange) (hq : q.InRange) (hr : r.InRange) (hslots : r.slots = p.slots + q.slots)
    (hzero : Step.mapAll (.shift 0) p.body.steps = p.body.steps) (hlocal : p.body.StoresLocally)
    (hrun : Step.runAll options rounds r.body.steps = (do
      Step.runAll options rounds p.body.steps
      Step.runAll options rounds (Step.mapAll (.shift p.slots) q.body.steps))) (model : Value) :
    r.render options rounds model = (do
      let first ← p.render options rounds model
      let second ← q.render options rounds model
      return first ++ second) := by
  have start : Inside ⟨#[], .replicate q.slots .undefined, "", 0⟩ p.slots (p.start model) (r.start model) := by
    refine ⟨by simp [Program.start], ?_⟩
    simp [Machine.inside, Program.start, hslots]
  unfold Program.render
  rw [Program.run_start hp, Program.run_start hq, Program.run_start hr, hrun]
  rcases (first_agrees hnone hp hzero hlocal rounds model _).ends ⟨start, rfl⟩ with
    ⟨_, m, m', hm, hm', ⟨hsize, rfl⟩, hmodel⟩ | ⟨e, m, m', hm, hm'⟩
  · -- what the first run leaves is around the second from its start
    have around : Inside ⟨m.slots, #[], m.output, m.iterations⟩ q.slots (q.start model)
        (m.inside ⟨#[], .replicate q.slots .undefined, "", 0⟩) := by
      refine ⟨by simp [Program.start], ?_⟩
      simp [Machine.inside, Program.start, hmodel]
    have second := second_agrees hnone hq rounds ⟨m.slots, #[], m.output, m.iterations⟩
    rw [hsize] at second
    rw [bind_of_ok hm', hm]
    rcases second.ends around with ⟨_, m₂, _, hm₂, hm₂', -, rfl⟩ | ⟨e, m₂, m₂', hm₂, hm₂'⟩
    · rw [hm₂, hm₂']
      rfl
    · rw [hm₂, hm₂']
      rfl
  · rw [bind_of_error hm', hm]
    rfl

/--
Two templates in a row, of which the first stores nothing to the model and shares none of its outermost
variables' names with the second: they compile, to a program with the slots of both. Without an iteration
limit the program fails as the first does, or else gives its text followed by what the second gives.
-/
theorem compile_append_renders (ha : (compile a).result = .ok p) (hb : (compile b).result = .ok q)
    (hlocal : p.body.StoresLocally)
    (hapart : ∀ x ∈ Step.declaredAll p.body.steps, x.name ∉ Segment.bareNamesAll b) :
    ∃ r, (compile (a ++ b)).result = .ok r ∧ r.slots = p.slots + q.slots ∧ ∀ model text,
      (∀ e k, p.Ends ⟨text, none⟩ model (.error e) k → ∃ k', r.Ends ⟨text, none⟩ model (.error e) k') ∧
      ∀ s result k k', p.Ends ⟨text, none⟩ model (.ok s) k → q.Ends ⟨text, none⟩ model result k' →
        ∃ k'', r.Ends ⟨text, none⟩ model (result.map (s ++ ·)) k'' := by
  obtain ⟨r, hr, hslots, hrun⟩ := compile_append_ok ha hb hapart
  have render (rounds : Nat) (model : Value) (text : String) : r.render ⟨text, none⟩ rounds model = (do
      let first ← p.render ⟨text, none⟩ rounds model
      let second ← q.render ⟨text, none⟩ rounds model
      return first ++ second) :=
    Program.render_append rfl (compile_inRange ha) (compile_inRange hb) (compile_inRange hr) hslots
      (compile_shift_zero ha) hlocal (hrun ⟨text, none⟩ rounds) model
  refine ⟨r, hr, hslots, fun model text => ⟨?_, ?_⟩⟩
  · rintro e k ⟨he, n, hn⟩
    have hp : p.render ⟨text, none⟩ n model = .error e := congrArg Prod.fst (hn n le_rfl)
    refine Program.ends_of_render n ?_ he
    rw [render, hp]
    rfl
  · rintro s result k k' ⟨-, n, hn⟩ ⟨hresult, n', hn'⟩
    have hp : p.render ⟨text, none⟩ (max n n') model = .ok s := congrArg Prod.fst (hn _ (le_max_left n n'))
    have hq : q.render ⟨text, none⟩ (max n n') model = result := congrArg Prod.fst (hn' _ (le_max_right n n'))
    refine Program.ends_of_render (max n n') ?_ ?_
    · rw [render, hp, hq]
      cases result <;> rfl
    · cases result <;> simp_all [Except.map]

end Append

/-- A template that writes to a field of its variable `s`. -/
def opening : List Segment := [
  .element "p" [.valued "class" [.statement (.assign (.name "s") (.name "m")), .expr (.name "s")]] "" false [],
  .statement (.assign (.member (.name "s") "f") (.literal "true")),
  .text "x"]

/-- A template with variables of its own that reads the same field of the model. -/
def closing : List Segment := [
  .text "y",
  .statement (.assign (.name "t") (.member (.name "m") "f")),
  .statement (.each "v" (.name "items") [.statement (.assign (.name "t") (.name "v")), .expr (.name "t")])]

theorem compile_append_renders_opening_closing : ∃ p q,
    (compile opening).result = .ok p ∧ (compile closing).result = .ok q ∧ p.body.StoresLocally ∧
      (∀ x ∈ Step.declaredAll p.body.steps, x.name ∉ Segment.bareNamesAll closing) ∧
      ∃ r, (compile (opening ++ closing)).result = .ok r ∧ r.slots = p.slots + q.slots ∧ ∀ model text,
        (∀ e k, p.Ends ⟨text, none⟩ model (.error e) k → ∃ k', r.Ends ⟨text, none⟩ model (.error e) k') ∧
        ∀ s result k k', p.Ends ⟨text, none⟩ model (.ok s) k → q.Ends ⟨text, none⟩ model result k' →
          ∃ k'', r.Ends ⟨text, none⟩ model (result.map (s ++ ·)) k'' := by
  have hlocal : (Block.mk [0] [
      .write "<p class=\"", .declare ⟨0, "s"⟩ (.model "m"), .emit (.variable ⟨0, "s"⟩), .write "\"></p>",
      .store ⟨.variable ⟨0, "s"⟩, ["f"]⟩ (.const (.bool true)), .write "x"]).StoresLocally := by
    simp [Block.StoresLocally, Block.Every, Step.EveryAll, Step.Every, Place.IsLocal]
  have hapart : ∀ x ∈ [(⟨0, "s"⟩ : Local)], x.name ∉ Segment.bareNamesAll closing := by decide
  refine ⟨⟨_, 1⟩, ⟨.mk [0] [
    .write "y", .declare ⟨0, "t"⟩ (.member (.model "m") "f"),
    .each ⟨1, "v"⟩ (.model "items") (.mk [] [.assign ⟨0, "t"⟩ (.variable ⟨1, "v"⟩), .emit (.variable ⟨0, "t"⟩)])], 2⟩,
    ?first, ?second, hlocal, hapart, compile_append_renders ?first ?second hlocal hapart⟩
  · rfl
  · rfl

end Stencil
