import Mathlib
import Stencil.Proofs.Agreement
import Stencil.Proofs.Rounds
/-!
# Where the text for missing data stands

A run can be recorded without knowing what is written in place of missing data: `Step.record` notes the texts of
the template and the values that are emitted, in order. Filled in with any text, the transcript is what the
machine writes with that text (`Program.render_eq_fill`). So the text decides nothing in a run, and it stands
where missing data is emitted and nowhere else.
-/

namespace Stencil

/-! ## Transcripts -/

/-- What a run puts out at one step. -/
inductive Entry where
  /-- A text of the template. -/
  | text (s : String)
  /-- The value of an emitted term. -/
  | value (v : Value)

/-- A fixed text, or a hole for the text in place of missing data. -/
inductive Piece where
  | text (s : String)
  | hole
deriving DecidableEq

/-- Missing data leaves a hole; any other value has a text of its own. -/
def Entry.piece : Entry → Piece
  | .text s => .text s
  | .value v => if v.isNullish then .hole else .text v.text

def Piece.fill (text : String) : Piece → String
  | .text s => s
  | .hole => text

/-- The pieces one after the other, with the text in each hole. -/
def fill (text : String) (pieces : List Piece) : String := String.join (pieces.map (Piece.fill text))

/-! ## Recorded runs -/

/-- A machine that keeps a transcript in place of its output. -/
structure Recorder where
  machine : Machine
  entries : List Entry

abbrev Recording := EStateM Halt Recorder

namespace Recording

variable {α : Type}

/-- A run that shows nothing. -/
def silent (run : Exec α) : Recording α := fun recorder =>
  match run recorder.machine with
  | .ok a machine => .ok a { recorder with machine }
  | .error halt machine => .error halt { recorder with machine }

def note (entry : Entry) : Recording Unit :=
  modify fun recorder => { recorder with entries := recorder.entries ++ [entry] }

def loop (test : Recording Bool) (round : Recording Unit) : (rounds : Nat) → Recording Unit
  | 0 => throw .exhausted
  | rounds + 1 => do
    if ← test then
      round
      loop test round rounds

end Recording

def Term.record (e : Term) : Recording Value := .silent e.run

mutual

def Step.record (limit : Option UInt64) (rounds : Nat) : Step → Recording Unit
  | .write s => .note (.text s)
  | .emit e => do .note (.value (← e.record))
  | .declare x e | .assign x e => do
    let v ← e.record
    .silent (Exec.eval fun _ => Eval.set x.slot v)
  | .store place e => do .silent (Exec.store place (← e.record))
  | .eval e => do discard e.record
  | .block body => body.record limit rounds
  | .when condition body => do
    if (← condition.record).isTruthy then body.record limit rounds
  | .choose condition body otherwise => do
    if (← condition.record).isTruthy then body.record limit rounds else otherwise.record limit rounds
  | .loop locals initial condition update body => do
    .silent (Exec.eval fun _ => Eval.reset locals)
    initial.record limit rounds
    let test : Recording Bool := return (← condition.record).isTruthy
    let round : Recording Unit := do
      .silent (Exec.tick limit)
      body.record limit rounds
      update.record limit rounds
    .loop test round rounds
  | .each x collection body => do
    let items ← .silent (Exec.ofExcept (← collection.record).items)
    items.forM fun item => do
      .silent (Exec.tick limit)
      .silent (Exec.eval fun _ => Eval.set x.slot item)
      body.record limit rounds
  | .switch subject body => do
    discard subject.record
    body.record limit rounds
  | .label _ guard =>
    match guard with
    | some e => discard e.record
    | none => pure ()

def Block.record (limit : Option UInt64) (rounds : Nat) : Block → Recording Unit
  | .mk locals steps => do
    .silent (Exec.eval fun _ => Eval.reset locals)
    Step.recordAll limit rounds steps

def Step.recordAll (limit : Option UInt64) (rounds : Nat) : List Step → Recording Unit
  | [] => pure ()
  | step :: rest => do
    step.record limit rounds
    Step.recordAll limit rounds rest

end

/-- The texts and the emitted values of a whole render, the first one first. -/
def Program.transcript (program : Program) (limit : Option UInt64) (rounds : Nat) (model : Value) :
    Except Halt (List Entry) :=
  match program.body.record limit rounds ⟨program.start model, []⟩ with
  | .ok _ recorder => .ok recorder.entries
  | .error halt _ => .error halt

/-! ## Recordings and runs with any text -/

section Agreement
variable {α : Type} {text : String}

theorem fill_append (pieces more : List Piece) : fill text (pieces ++ more) = fill text pieces ++ fill text more := by
  rw [fill, List.map_append, String.join_append]
  rfl

/-- The machine has written what the transcript is with the text in its holes. -/
def Written (text : String) (recorder : Recorder) (m : Machine) : Prop :=
  m = { recorder.machine with output := fill text (recorder.entries.map Entry.piece) }

theorem note_agrees (entry : Entry) {s : String} (h : entry.piece.fill text = s) :
    Agrees (Written text) (Written text) (Recording.note entry) (Exec.write s) := by
  rintro recorder _ rfl
  refine ⟨rfl, ?_⟩
  have hentry : fill text [entry.piece] = s := by
    rw [← h]
    simp [fill]
  simp only [Written, List.map_append, List.map_singleton, fill_append, hentry]

theorem silent_eval_agrees (run : Value → Eval α) :
    Agrees (Written text) (Written text) (Recording.silent (Exec.eval run)) (Exec.eval run) := by
  rintro recorder _ rfl
  unfold Recording.silent Exec.eval
  dsimp only
  cases run recorder.machine.model recorder.machine.slots with
  | ok a slots => exact ⟨rfl, rfl⟩
  | error halt slots => rfl

theorem Term.record_agrees (e : Term) : Agrees (Written text) (Written text) e.record e.run := silent_eval_agrees e.eval

theorem silent_ofExcept_agrees (r : Except Fault α) :
    Agrees (Written text) (Written text) (Recording.silent (Exec.ofExcept r)) (Exec.ofExcept r) := by
  rintro recorder _ rfl
  cases r with
  | ok a => exact ⟨rfl, rfl⟩
  | error fault => rfl

theorem silent_tick_agrees (limit : Option UInt64) :
    Agrees (Written text) (Written text) (Recording.silent (Exec.tick limit)) (Exec.tick limit) := by
  intro recorder m hm
  have hk : m.iterations = recorder.machine.iterations := by
    unfold Written at hm
    rw [hm]
  unfold Recording.silent
  rcases Exec.tick_cases limit recorder.machine.iterations with h | ⟨fault, h⟩
  · rw [h _ rfl, h m hk]
    unfold Written at hm ⊢
    refine ⟨rfl, ?_⟩
    rw [hm]
  · rw [h _ rfl, h m hk]

theorem silent_bind {β : Type} (x : Exec α) (f : α → Exec β) :
    Recording.silent (x >>= f) = Recording.silent x >>= fun a => Recording.silent (f a) := by
  funext recorder
  change _ = EStateM.bind _ _ recorder
  unfold Recording.silent EStateM.bind
  cases hx : x recorder.machine with
  | ok a m =>
    rw [bind_of_ok hx]
    simp only [hx]
  | error halt m =>
    rw [bind_of_error hx]
    simp only [hx]

theorem silent_store_agrees (place : Place) (v : Value) :
    Agrees (Written text) (Written text) (Recording.silent (Exec.store place v)) (Exec.store place v) := by
  obtain ⟨x | name, path⟩ := place
  · unfold Exec.store
    dsimp only
    rw [silent_bind]
    refine .bind (silent_eval_agrees _) fun target => ?_
    rw [silent_bind]
    refine .bind ?_ fun updated => silent_eval_agrees _
    rintro recorder _ rfl
    cases v.store path target with
    | ok updated => exact ⟨rfl, rfl⟩
    | error fault => rfl
  · rintro recorder _ rfl
    unfold Recording.silent
    rw [store_model, store_model]
    dsimp only
    cases storeModel v name path recorder.machine.model with
    | ok updated => exact ⟨rfl, rfl⟩
    | error fault => rfl

theorem Recording.loop_agrees {test : Recording Bool} {test' : Exec Bool} {round : Recording Unit} {round' : Exec Unit}
    (ht : Agrees (Written text) (Written text) test test') (hr : Agrees (Written text) (Written text) round round')
    (rounds : Nat) :
    Agrees (Written text) (Written text) (Recording.loop test round rounds) (Exec.loop test' round' rounds) :=
  AgreesUpTo.loop ht hr (.throw rfl) (fun _ => rfl) (fun _ => rfl) rounds

/-- An emitted value is written as the piece that it leaves. -/
theorem fill_value (limit : Option UInt64) (v : Value) :
    (Entry.value v).piece.fill text = Options.textOf ⟨text, limit⟩ v := by
  simp only [Entry.piece, Options.textOf]
  split <;> rfl

variable (limit : Option UInt64) (rounds : Nat)

mutual

/-- A recorded step and the step with any text take the same course. -/
theorem Step.record_agrees : ∀ step : Step,
    Agrees (Written text) (Written text) (step.record limit rounds) (step.run ⟨text, limit⟩ rounds)
  | .write _ => note_agrees _ rfl
  | .emit e => .bind e.record_agrees fun v => note_agrees _ (fill_value limit v)
  | .declare _ e | .assign _ e => .bind e.record_agrees fun _ => silent_eval_agrees _
  | .store place e => .bind e.record_agrees fun v => silent_store_agrees place v
  | .eval e => e.record_agrees.discard
  | .block body => Block.record_agrees body
  | .when condition body => by
    refine .bind condition.record_agrees fun v => ?_
    split
    · exact Block.record_agrees body
    · exact .pure ()
  | .choose condition body otherwise => by
    refine .bind condition.record_agrees fun v => ?_
    split
    · exact Block.record_agrees body
    · exact Block.record_agrees otherwise
  | .loop _ initial condition update body => by
    refine .bind (silent_eval_agrees _) fun _ => .bind (Step.record_agrees initial) fun _ => ?_
    refine Recording.loop_agrees (.bind condition.record_agrees fun _ => .pure _) ?_ rounds
    exact .bind (silent_tick_agrees limit) fun _ =>
      .bind (Block.record_agrees body) fun _ => Step.record_agrees update
  | .each _ collection body => by
    refine .bind collection.record_agrees fun v => .bind (silent_ofExcept_agrees v.items) fun items => ?_
    refine .forM (fun item => .bind (silent_tick_agrees limit) fun _ => ?_) items
    exact .bind (silent_eval_agrees _) fun _ => Block.record_agrees body
  | .switch subject body => .bind subject.record_agrees.discard fun _ => Block.record_agrees body
  | .label _ none => .pure ()
  | .label _ (some guard) => guard.record_agrees.discard

theorem Block.record_agrees : ∀ b : Block,
    Agrees (Written text) (Written text) (b.record limit rounds) (b.run ⟨text, limit⟩ rounds)
  | .mk _ steps => .bind (silent_eval_agrees _) fun _ => Step.recordAll_agrees steps

theorem Step.recordAll_agrees : ∀ steps : List Step,
    Agrees (Written text) (Written text) (Step.recordAll limit rounds steps) (Step.runAll ⟨text, limit⟩ rounds steps)
  | [] => .pure ()
  | step :: rest => .bind (Step.record_agrees step) fun _ => Step.recordAll_agrees rest

end

end Agreement

/-! ## Renders with any text -/

/-- A render is its transcript with the text in the holes, or halts as the recording does. -/
theorem Program.render_eq_fill (program : Program) (limit : Option UInt64) (rounds : Nat) (model : Value)
    (text : String) :
    program.render ⟨text, limit⟩ rounds model =
      (program.transcript limit rounds model).map fun entries => fill text (entries.map Entry.piece) := by
  have start : Written text ⟨program.start model, []⟩ (program.start model) := rfl
  unfold Program.render Program.transcript
  rcases (Block.record_agrees limit rounds program.body).ends start with
    ⟨_, recorder, m, hr, hm, rfl⟩ | ⟨halt, recorder, m, hr, hm⟩
  · rw [hr, hm]
    rfl
  · rw [hr, hm]
    rfl

/--
The text in place of missing data is only ever inserted. With every text the program runs without end, or with
every text it fails with one and the same fault, or its renders are one list of pieces with the text in the
holes; and the holes are where the program emits missing data.
-/
theorem undefinedText_only_inserted (program : Program) (h : program.InRange) (limit : Option UInt64) (model : Value) :
    (∀ text result, ¬program.Renders ⟨text, limit⟩ model result) ∨
    (∃ fault, ∀ text, program.Renders ⟨text, limit⟩ model (.error (.fault fault))) ∨
    ∃ rounds entries, program.transcript limit rounds model = .ok entries ∧
      ∀ text, program.Renders ⟨text, limit⟩ model (.ok (fill text (entries.map Entry.piece))) := by
  by_cases hends : ∃ rounds, program.transcript limit rounds model ≠ .error .exhausted
  · obtain ⟨rounds, hne⟩ := hends
    right
    cases htranscript : program.transcript limit rounds model with
    | ok entries =>
      refine .inr ⟨rounds, entries, htranscript, fun text => Program.renders_iff.2 ⟨by simp, rounds, ?_⟩⟩
      rw [program.render_eq_fill, htranscript]
      rfl
    | error halt =>
      have hrender (text : String) : program.render ⟨text, limit⟩ rounds model = .error halt := by
        rw [program.render_eq_fill, htranscript]
        rfl
      cases halt with
      | fault fault => exact .inl ⟨fault, fun text => Program.renders_iff.2 ⟨by simp, rounds, hrender text⟩⟩
      | missingSlot slot => exact (Program.render_found h ⟨"", limit⟩ rounds model slot (hrender "")).elim
      | exhausted => exact (hne htranscript).elim
  · left
    rintro text result hr
    obtain ⟨hne, rounds, rfl⟩ := Program.renders_iff.1 hr
    have hexhausted : program.transcript limit rounds model = .error .exhausted :=
      Classical.byContradiction fun h => hends ⟨rounds, h⟩
    rw [program.render_eq_fill, hexhausted] at hne
    exact hne rfl

/-- Emits missing data in a loop, and missing data within an array, after `+` and from a field that is not there. -/
def gaps : Program := ⟨.mk [] [
  .each ⟨0, "item"⟩ (.model "items") (.mk [] [.emit (.variable ⟨0, "item"⟩), .write ";"]),
  .emit (.model "items"),
  .emit (.binary (.arithmetic .add) (.const (.string "=")) (.const .null)),
  .emit (.model "absent")], 1⟩

theorem undefinedText_only_inserted_gaps :
    gaps.InRange ∧
    ((∀ text result, ¬gaps.Renders ⟨text, none⟩ (.object [("items", .array [.null, .bool true])]) result) ∨
    (∃ fault, ∀ text,
      gaps.Renders ⟨text, none⟩ (.object [("items", .array [.null, .bool true])]) (.error (.fault fault))) ∨
    ∃ rounds entries, gaps.transcript none rounds (.object [("items", .array [.null, .bool true])]) = .ok entries ∧
      ∀ text, gaps.Renders ⟨text, none⟩ (.object [("items", .array [.null, .bool true])])
        (.ok (fill text (entries.map Entry.piece)))) ∧
    (gaps.transcript none 1 (.object [("items", .array [.null, .bool true])])).map (List.map Entry.piece) =
      .ok [.hole, .text ";", .text "true", .text ";", .text ",true", .text "=", .hole] := by
  have h : gaps.InRange := by
    simp [gaps, Program.InRange, Block.InRange, Block.Every, Step.EveryAll, Step.Every, Term.InRange, Term.Every]
  exact ⟨h, undefinedText_only_inserted gaps h none _, by decide +kernel⟩

end Stencil
