import Mathlib
import Stencil.Proofs.Agreement
import Stencil.Proofs.Rounds
/-!
# Programs mapped part by part

A mapping says what becomes of the variables, terms, places and reset lists of a program. A program and
its image run alike when their parts do (`Step.map_agrees`), and a term and its image when their leaves do
(`Term.replace_agrees`). Both may halt differently as far as a relation between halts allows. A program
whose slots stay where they are runs alike on machines that are the same besides their models
(`Program.map_renders`), and from that comes what two renders share however long they run
(`Program.rendersLike_of_rounds`).
-/

namespace Stencil

structure Mapping where
  var : Local → Local
  term : Term → Term
  place : Place → Place
  locals : List Nat → List Nat

mutual

def Step.map (f : Mapping) : Step → Step
  | .write s => .write s
  | .emit e => .emit (f.term e)
  | .declare x e => .declare (f.var x) (f.term e)
  | .assign x e => .assign (f.var x) (f.term e)
  | .store place e => .store (f.place place) (f.term e)
  | .eval e => .eval (f.term e)
  | .block body => .block (body.map f)
  | .when condition body => .when (f.term condition) (body.map f)
  | .choose condition body otherwise => .choose (f.term condition) (body.map f) (otherwise.map f)
  | .loop locals initial condition update body =>
    .loop (f.locals locals) (initial.map f) (f.term condition) (update.map f) (body.map f)
  | .each x collection body => .each (f.var x) (f.term collection) (body.map f)
  | .switch subject body => .switch (f.term subject) (body.map f)
  | .label name guard => .label name (guard.map f.term)

def Block.map (f : Mapping) : Block → Block
  | .mk locals steps => .mk (f.locals locals) (Step.mapAll f steps)

def Step.mapAll (f : Mapping) : List Step → List Step
  | [] => []
  | step :: rest => step.map f :: Step.mapAll f rest

end

def Program.map (f : Mapping) (program : Program) : Program := ⟨program.body.map f, program.slots⟩

/-- Leaves everything as it is. -/
def Mapping.same : Mapping := ⟨id, id, id, id⟩

mutual

theorem Step.map_same : ∀ step : Step, step.map .same = step
  | .write _ | .emit _ | .declare _ _ | .assign _ _ | .store _ _ | .eval _ => rfl
  | .block body => by rw [Step.map, Block.map_same body]
  | .when _ body | .each _ _ body | .switch _ body => by
    rw [Step.map, Block.map_same body]
    rfl
  | .choose _ body otherwise => by
    rw [Step.map, Block.map_same body, Block.map_same otherwise]
    rfl
  | .loop _ initial _ update body => by
    rw [Step.map, Step.map_same initial, Step.map_same update, Block.map_same body]
    rfl
  | .label _ guard => by cases guard <;> rfl

theorem Block.map_same : ∀ b : Block, b.map .same = b
  | .mk _ steps => by
    rw [Block.map, Step.mapAll_same steps]
    rfl

theorem Step.mapAll_same : ∀ steps : List Step, Step.mapAll .same steps = steps
  | [] => rfl
  | step :: rest => by rw [Step.mapAll, Step.map_same step, Step.mapAll_same rest]

end

@[simp] theorem Program.map_same (program : Program) : program.map .same = program := by
  rw [Program.map, Block.map_same]

/-! ## Terms mapped leaf by leaf -/

mutual

/-- The names of the model that the term reads. -/
def Term.modelNames : Term → List String
  | .const _ | .variable _ | .update _ _ => []
  | .model name => [name]
  | .member target _ => target.modelNames
  | .index target position => target.modelNames ++ position.modelNames
  | .call target _ args => target.modelNames ++ Term.modelNamesArgs args
  | .unary _ operand => operand.modelNames
  | .binary _ left right => left.modelNames ++ right.modelNames
  | .conditional condition ifTrue ifFalse => condition.modelNames ++ ifTrue.modelNames ++ ifFalse.modelNames

def Term.modelNamesArgs : List Term → List String
  | [] => []
  | e :: rest => e.modelNames ++ Term.modelNamesArgs rest

end

mutual

/-- The term with other variables, and with terms in the place of the names of the model. -/
def Term.replace (var : Local → Local) (read : String → Term) : Term → Term
  | .const v => .const v
  | .variable x => .variable (var x)
  | .model name => read name
  | .member target name => .member (target.replace var read) name
  | .index target position => .index (target.replace var read) (position.replace var read)
  | .call target method args => .call (target.replace var read) method (Term.replaceArgs var read args)
  | .unary op operand => .unary op (operand.replace var read)
  | .update op x => .update op (var x)
  | .binary op left right => .binary op (left.replace var read) (right.replace var read)
  | .conditional condition ifTrue ifFalse =>
    .conditional (condition.replace var read) (ifTrue.replace var read) (ifFalse.replace var read)

def Term.replaceArgs (var : Local → Local) (read : String → Term) : List Term → List Term
  | [] => []
  | e :: rest => e.replace var read :: Term.replaceArgs var read rest

end

mutual

@[simp] theorem Term.replace_self : ∀ e : Term, e.replace id .model = e
  | .const _ | .variable _ | .model _ | .update _ _ => rfl
  | .member target _ => by rw [Term.replace, Term.replace_self target]
  | .index target position => by rw [Term.replace, Term.replace_self target, Term.replace_self position]
  | .call target _ args => by rw [Term.replace, Term.replace_self target, Term.replaceArgs_self args]
  | .unary _ operand => by rw [Term.replace, Term.replace_self operand]
  | .binary _ left right => by rw [Term.replace, Term.replace_self left, Term.replace_self right]
  | .conditional condition ifTrue ifFalse => by
    rw [Term.replace, Term.replace_self condition, Term.replace_self ifTrue, Term.replace_self ifFalse]

@[simp] theorem Term.replaceArgs_self : ∀ es : List Term, Term.replaceArgs id .model es = es
  | [] => rfl
  | e :: rest => by rw [Term.replaceArgs, Term.replace_self e, Term.replaceArgs_self rest]

end

section Terms
variable {E : Halt → Halt → Prop} {R : Slots → Slots → Prop} {var : Local → Local} {read : String → Term}
  {model model' : Value} {P Q : Local → Prop} {N : String → Prop}

theorem Eval.ofExcept_agreesUpTo {α : Type} (same : ∀ halt, E halt halt) (r : Except Fault α) :
    AgreesUpTo E R R (Eval.ofExcept r) (Eval.ofExcept r) := by
  cases r with
  | ok a => exact .pure a
  | error f => exact .throw (same _)

theorem Eval.ofExcept_agrees_self {α : Type} (r : Except Fault α) :
    Agrees R R (Eval.ofExcept r) (Eval.ofExcept r) :=
  Eval.ofExcept_agreesUpTo (fun _ => rfl) r

/--
Variables in `P` are read alike, those in `Q` are updated alike, and the terms in the place of the names in
`N` have the values that these have.
-/
structure MatchedLeaves (E : Halt → Halt → Prop) (R : Slots → Slots → Prop) (var : Local → Local)
    (read : String → Term) (model model' : Value) (P Q : Local → Prop) (N : String → Prop) : Prop where
  same : ∀ halt, E halt halt
  get : ∀ x, P x → AgreesUpTo E R R (Eval.get x.slot) (Eval.get (var x).slot)
  set : ∀ x v, Q x → AgreesUpTo E R R (Eval.set x.slot v) (Eval.set (var x).slot v)
  update : ∀ op x found, Q x →
    E (.fault (.invalidUpdate op x.name found)) (.fault (.invalidUpdate op (var x).name found))
  model : ∀ name, N name → AgreesUpTo E R R (pure (modelField model name)) ((read name).eval model')

mutual

/-- A term and its image have the same value when their leaves have. -/
theorem Term.replace_agrees (h : MatchedLeaves E R var read model model' P Q N) :
    ∀ e : Term, e.Every P Q → (∀ name ∈ e.modelNames, N name) →
      AgreesUpTo E R R (e.eval model) ((e.replace var read).eval model')
  | .const _, _, _ => .pure _
  | .variable x, he, _ => h.get x he
  | .model name, _, hn => h.model name (hn name (by simp [Term.modelNames]))
  | .member target _, he, hn => .bind (Term.replace_agrees h target he hn) fun _ => .pure _
  | .index target position, he, hn => by
    obtain ⟨nt, np⟩ := List.forall_mem_append.1 hn
    exact .bind (Term.replace_agrees h target he.1 nt) fun _ =>
      .bind (Term.replace_agrees h position he.2 np) fun _ => .pure _
  | .call target _ args, he, hn => by
    obtain ⟨nt, na⟩ := List.forall_mem_append.1 hn
    exact .bind (Term.replace_agrees h target he.1 nt) fun _ =>
      .bind (Term.replaceArgs_agrees h args he.2 na) fun _ => Eval.ofExcept_agreesUpTo h.same _
  | .unary _ operand, he, hn =>
    .bind (Term.replace_agrees h operand he hn) fun _ => Eval.ofExcept_agreesUpTo h.same _
  | .update op x, he, _ => by
    refine .bind (h.get x he.1) fun v => ?_
    -- a failed update names the variable, which may have another name in the image
    cases op.apply? v with
    | none => exact .throw (h.update op x v.kind he.2)
    | some w => exact .bind (h.set x w he.2) fun _ => .pure w
  | .binary _ left right, he, hn => by
    obtain ⟨nl, nr⟩ := List.forall_mem_append.1 hn
    refine .bind (Term.replace_agrees h left he.1 nl) fun v => ?_
    split
    · exact .pure v
    · exact .bind (Term.replace_agrees h right he.2 nr) fun _ => Eval.ofExcept_agreesUpTo h.same _
  | .conditional condition ifTrue ifFalse, he, hn => by
    obtain ⟨nct, nf⟩ := List.forall_mem_append.1 hn
    obtain ⟨nc, nt⟩ := List.forall_mem_append.1 nct
    refine .bind (Term.replace_agrees h condition he.1 nc) fun v => ?_
    split
    · exact Term.replace_agrees h ifTrue he.2.1 nt
    · exact Term.replace_agrees h ifFalse he.2.2 nf

theorem Term.replaceArgs_agrees (h : MatchedLeaves E R var read model model' P Q N) :
    ∀ es : List Term, Term.EveryArg P Q es → (∀ name ∈ Term.modelNamesArgs es, N name) →
      AgreesUpTo E R R (Term.evalArgs model es) (Term.evalArgs model' (Term.replaceArgs var read es))
  | [], _, _ => .pure _
  | e :: rest, he, hn => by
    obtain ⟨ne, nr⟩ := List.forall_mem_append.1 hn
    exact .bind (Term.replace_agrees h e he.1 ne) fun _ =>
      .bind (Term.replaceArgs_agrees h rest he.2 nr) fun _ => .pure _

end

end Terms

/-! ## A program and its image -/

theorem Exec.loop_agrees_loop {E : Halt → Halt → Prop} {R : Machine → Machine → Prop} {test test' : Exec Bool}
    {round round' : Exec Unit} (hE : E .exhausted .exhausted) (ht : AgreesUpTo E R R test test')
    (hr : AgreesUpTo E R R round round') (rounds : Nat) :
    AgreesUpTo E R R (Exec.loop test round rounds) (Exec.loop test' round' rounds) :=
  AgreesUpTo.loop ht hr (.throw hE) (fun _ => rfl) (fun _ => rfl) rounds

/-- The parts of a program and their images agree between states in `R`, up to halts in `E`. -/
structure Matched (E : Halt → Halt → Prop) (f : Mapping) (R : Machine → Machine → Prop) (limit : Option UInt64)
    (term : Term → Prop) (slot : Nat → Prop) (place : Place → Prop) : Prop where
  same : ∀ halt, E halt halt
  term : ∀ e, term e → AgreesUpTo E R R e.run (f.term e).run
  set : ∀ x v, slot x.slot →
    AgreesUpTo E R R (Exec.eval fun _ => Eval.set x.slot v) (Exec.eval fun _ => Eval.set (f.var x).slot v)
  store : ∀ target v, place target → AgreesUpTo E R R (Exec.store target v) (Exec.store (f.place target) v)
  reset : ∀ locals, (∀ s ∈ locals, slot s) →
    AgreesUpTo E R R (Exec.eval fun _ => Eval.reset locals) (Exec.eval fun _ => Eval.reset (f.locals locals))
  write : ∀ s, AgreesUpTo E R R (Exec.write s) (Exec.write s)
  tick : AgreesUpTo E R R (Exec.tick limit) (Exec.tick limit)

section Matched
variable {E : Halt → Halt → Prop} {f : Mapping} {R : Machine → Machine → Prop} {options : Options}
  {term : Term → Prop} {slot : Nat → Prop} {place : Place → Prop}

theorem Exec.ofExcept_agreesUpTo {α : Type} (same : ∀ halt, E halt halt) (r : Except Fault α) :
    AgreesUpTo E R R (Exec.ofExcept r) (Exec.ofExcept r) := by
  cases r with
  | ok a => exact .pure a
  | error f => exact .throw (same _)

theorem Exec.ofExcept_agrees {α : Type} (r : Except Fault α) : Agrees R R (Exec.ofExcept r) (Exec.ofExcept r) :=
  Exec.ofExcept_agreesUpTo (fun _ => rfl) r

mutual

/-- A step and its image run alike when their parts do. -/
theorem Step.map_agrees (h : Matched E f R options.iterationLimit term slot place) (rounds : Nat) :
    ∀ step : Step, step.Every term slot place →
      AgreesUpTo E R R (step.run options rounds) ((step.map f).run options rounds)
  | .write s, _ => h.write s
  | .emit e, he => .bind (h.term e he) fun _ => h.write _
  | .declare x e, he | .assign x e, he => .bind (h.term e he.2) fun v => h.set x v he.1
  | .store target e, he => .bind (h.term e he.2) fun v => h.store target v he.1
  | .eval e, he => (h.term e he).discard
  | .block body, he => Block.map_agrees h rounds body he
  | .when condition body, he => by
    refine .bind (h.term condition he.1) fun v => ?_
    split
    · exact Block.map_agrees h rounds body he.2
    · exact .pure ()
  | .choose condition body otherwise, he => by
    refine .bind (h.term condition he.1) fun v => ?_
    split
    · exact Block.map_agrees h rounds body he.2.1
    · exact Block.map_agrees h rounds otherwise he.2.2
  | .loop locals initial condition update body, he => by
    obtain ⟨hl, hi, hc, hu, hb⟩ := he
    refine .bind (h.reset locals hl) fun _ => .bind (Step.map_agrees h rounds initial hi) fun _ => ?_
    refine Exec.loop_agrees_loop (h.same _) (.bind (h.term condition hc) fun _ => .pure _)
      (.bind h.tick fun _ => ?_) rounds
    exact .bind (Block.map_agrees h rounds body hb) fun _ => Step.map_agrees h rounds update hu
  | .each x collection body, he => by
    refine .bind (h.term collection he.2.1) fun v =>
      .bind (Exec.ofExcept_agreesUpTo h.same v.items) fun items => ?_
    refine .forM (fun item => .bind h.tick fun _ => .bind (h.set x item he.1) fun _ => ?_) items
    exact Block.map_agrees h rounds body he.2.2
  | .switch subject body, he =>
    .bind (h.term subject he.1).discard fun _ => Block.map_agrees h rounds body he.2
  | .label _ none, _ => .pure ()
  | .label _ (some guard), he => (h.term guard he).discard

theorem Block.map_agrees (h : Matched E f R options.iterationLimit term slot place) (rounds : Nat) :
    ∀ b : Block, b.Every term slot place →
      AgreesUpTo E R R (b.run options rounds) ((b.map f).run options rounds)
  | .mk locals steps, he => .bind (h.reset locals he.1) fun _ => Step.mapAll_agrees h rounds steps he.2

theorem Step.mapAll_agrees (h : Matched E f R options.iterationLimit term slot place) (rounds : Nat) :
    ∀ steps : List Step, Step.EveryAll term slot place steps →
      AgreesUpTo E R R (Step.runAll options rounds steps) (Step.runAll options rounds (Step.mapAll f steps))
  | [], _ => .pure ()
  | step :: rest, he =>
    .bind (Step.map_agrees h rounds step he.1) fun _ => Step.mapAll_agrees h rounds rest he.2

end

end Matched

/-! ## Machines that are the same besides their models -/

section Model
variable {name : String}

theorem modelField_object (h : name ≠ modelName) (fields : List (String × Value)) :
    modelField (.object fields) name = (Fields.get? name fields).getD .undefined := by
  simp [modelField, resolveModel?, h]

/-- A store to the model starts from what its name reads, and sets that name only. -/
theorem storeModel_object (h : name ≠ modelName) (v : Value) (path : List String) (fields : List (String × Value)) :
    storeModel v name path (.object fields) =
      (v.store path (modelField (.object fields) name)).map fun w => .object (Fields.insert name w fields) := by
  rw [modelField_object h]
  simp only [storeModel, if_neg h]
  cases v.store path ((Fields.get? name fields).getD .undefined) <;> rfl

end Model

def Besides (M : Value → Value → Prop) (m m' : Machine) : Prop :=
  M m.model m'.model ∧ m' = { m with model := m'.model }

section Besides
variable {E : Halt → Halt → Prop} {M : Value → Value → Prop} {f : Mapping} {options : Options} {term : Term → Prop}
  {slot : Nat → Prop} {place : Place → Prop}

theorem Exec.eval_besides {α : Type} {x y : Value → Eval α}
    (h : ∀ a b, M a b → AgreesUpTo E Eq Eq (x a) (y b)) :
    AgreesUpTo E (Besides M) (Besides M) (Exec.eval x) (Exec.eval y) := by
  rintro m m' ⟨hM, hm⟩
  have hslots : m'.slots = m.slots := by rw [hm]
  unfold Exec.eval
  rw [hslots]
  rcases (h m.model m'.model hM).ends (rfl : m.slots = m.slots) with
    ⟨a, s, _, hx, hy, rfl⟩ | ⟨e, e', s, s', hx, hy, he⟩
  · rw [hx, hy]
    refine ⟨rfl, hM, ?_⟩
    rw [hm]
  · rw [hx, hy]
    exact he

theorem Eval.agrees_self {α : Type} (same : ∀ halt, E halt halt) (x : Eval α) : AgreesUpTo E Eq Eq x x := by
  rintro s _ rfl
  cases x s with
  | ok a t => exact ⟨rfl, rfl⟩
  | error e t => exact same e

/-- A term and its image that reads the same slots differ at most in what they make of the model. -/
theorem Term.replace_agrees_besides (same : ∀ halt, E halt halt) {var : Local → Local} {read : String → Term}
    {N : String → Prop} {a b : Value} (hslot : ∀ x, (var x).slot = x.slot)
    (hupdate : ∀ op x found,
      E (.fault (.invalidUpdate op x.name found)) (.fault (.invalidUpdate op (var x).name found)))
    (hread : ∀ name, N name → AgreesUpTo E Eq Eq (pure (modelField a name)) ((read name).eval b)) (e : Term)
    (hn : ∀ name ∈ e.modelNames, N name) : AgreesUpTo E Eq Eq (e.eval a) ((e.replace var read).eval b) := by
  have leaves : MatchedLeaves E Eq var read a b (fun _ => True) (fun _ => True) N :=
    { same
      get := fun x _ => by
        rw [hslot]
        exact Eval.agrees_self same _
      set := fun x v _ => by
        rw [hslot]
        exact Eval.agrees_self same _
      update := fun op x found _ => hupdate op x found
      model := hread }
  exact Term.replace_agrees leaves e (Term.every_of_forall (fun _ => trivial) (fun _ => trivial) e) hn

/-- Variables that share a slot are stored into alike, up to what the faults say of them. -/
theorem store_variable_besides (same : ∀ halt, E halt halt) {x y : Local} (hslot : y.slot = x.slot)
    {path : List String} (hE : ∀ fault, E (.fault (.invalidAssignment (Place.text ⟨.variable x, path⟩) fault))
      (.fault (.invalidAssignment (Place.text ⟨.variable y, path⟩) fault))) (v : Value) :
    AgreesUpTo E (Besides M) (Besides M) (Exec.store ⟨.variable x, path⟩ v) (Exec.store ⟨.variable y, path⟩ v) := by
  unfold Exec.store
  simp only [hslot]
  refine .bind (Exec.eval_besides fun _ _ _ => Eval.agrees_self same _) fun target => .bind ?_ fun updated =>
    Exec.eval_besides fun _ _ _ => Eval.agrees_self same _
  cases v.store path target with
  | ok updated => exact .pure updated
  | error fault => exact .throw (hE fault)

/-- Stores to the model that lead to related models, or fail alike. -/
theorem store_model_besides {name name' : String} {path path' : List String} {v : Value}
    (h : ∀ a b, M a b →
      match storeModel v name path a, storeModel v name' path' b with
      | .ok a', .ok b' => M a' b'
      | .error fault, .error fault' =>
        E (.fault (.invalidAssignment (Place.text ⟨.model name, path⟩) fault))
          (.fault (.invalidAssignment (Place.text ⟨.model name', path'⟩) fault'))
      | _, _ => False) :
    AgreesUpTo E (Besides M) (Besides M) (Exec.store ⟨.model name, path⟩ v) (Exec.store ⟨.model name', path'⟩ v) := by
  rintro m m' ⟨hM, hm⟩
  have hab := h m.model m'.model hM
  rw [store_model, store_model]
  cases hx : storeModel v name path m.model with
  | ok a =>
    cases hy : storeModel v name' path' m'.model with
    | ok b =>
      rw [hx, hy] at hab
      refine ⟨rfl, hab, ?_⟩
      rw [hm]
    | error fault =>
      rw [hx, hy] at hab
      exact hab.elim
  | error fault =>
    cases hy : storeModel v name' path' m'.model with
    | ok b =>
      rw [hx, hy] at hab
      exact hab.elim
    | error fault' =>
      rw [hx, hy] at hab
      exact hab

theorem tick_besides (same : ∀ halt, E halt halt) (limit : Option UInt64) :
    AgreesUpTo E (Besides M) (Besides M) (Exec.tick limit) (Exec.tick limit) := by
  rintro m m' ⟨hM, hm⟩
  have hk : m'.iterations = m.iterations := by rw [hm]
  have after : Besides M { m with iterations := m.iterations + 1 } { m' with iterations := m.iterations + 1 } := by
    refine ⟨hM, ?_⟩
    rw [hm]
  rcases Exec.tick_cases limit m.iterations with h | ⟨fault, h⟩
  · rw [h m rfl, h m' hk]
    exact ⟨rfl, after⟩
  · rw [h m rfl, h m' hk]
    exact same _

/-- Where the slots stay as they are, only terms and stores can tell the models apart. -/
theorem besides_matched (same : ∀ halt, E halt halt) (hvar : ∀ x, (f.var x).slot = x.slot)
    (hlocals : ∀ locals, f.locals locals = locals)
    (hterm : ∀ e, term e → ∀ a b, M a b → AgreesUpTo E Eq Eq (e.eval a) ((f.term e).eval b))
    (hstore : ∀ target v, place target →
      AgreesUpTo E (Besides M) (Besides M) (Exec.store target v) (Exec.store (f.place target) v))
    (limit : Option UInt64) : Matched E f (Besides M) limit term slot place where
  same := same
  term e he := Exec.eval_besides (hterm e he)
  set x v _ := by
    rw [hvar]
    exact Exec.eval_besides fun _ _ _ => Eval.agrees_self same _
  store := hstore
  reset locals _ := by
    rw [hlocals]
    exact Exec.eval_besides fun _ _ _ => Eval.agrees_self same _
  write s := by
    rintro m m' ⟨hM, hm⟩
    refine ⟨rfl, hM, ?_⟩
    rw [hm]
  tick := tick_besides same limit

/-- Two renders give the same text, or halt with halts in `E`. -/
def ResultsUpTo (E : Halt → Halt → Prop) : Except Halt String → Except Halt String → Prop
  | .ok s, .ok t => s = t
  | .error e, .error f => E e f
  | _, _ => False

theorem ResultsUpTo.eq {x y : Except Halt String} (h : ResultsUpTo Eq x y) : x = y := by
  cases x <;> cases y <;> simp_all [ResultsUpTo]

theorem Program.map_renders (h : Matched E f (Besides M) options.iterationLimit term slot place) {program : Program}
    (hp : program.body.Every term slot place) {model model' : Value} (hM : M model model') (rounds : Nat) :
    ResultsUpTo E (program.render options rounds model) ((program.map f).render options rounds model') := by
  have start : Besides M (program.start model) ((program.map f).start model') := ⟨hM, rfl⟩
  have body : (program.map f).body = program.body.map f := rfl
  unfold Program.render
  rw [body]
  rcases (Block.map_agrees h rounds program.body hp).ends start with
    ⟨_, m, m', hx, hy, -, hm⟩ | ⟨e, e', m, m', hx, hy, he⟩
  · rw [hx, hy, hm]
    rfl
  · rw [hx, hy]
    exact he

end Besides

/-! ## Programs that render alike -/

/-- Faults related by `F`; halts of other kinds are the same. -/
def Halt.UpTo (F : Fault → Fault → Prop) : Halt → Halt → Prop
  | .fault f, .fault g => F f g
  | halt, halt' => halt = halt'

/-- Either render comes to an end if the other does, with the same text or with faults related by `F`. -/
structure Program.RendersLike (F : Fault → Fault → Prop) (p q : Program) (options : Options) (model : Value) :
    Prop where
  ends : (∃ result, p.Renders options model result) ↔ ∃ result, q.Renders options model result
  results : ∀ result result', p.Renders options model result → q.Renders options model result' →
    ResultsUpTo (Halt.UpTo F) result result'

section Faults
variable {F : Fault → Fault → Prop} {p q : Program} {options : Options} {model : Value}

theorem Halt.upTo_self (hF : ∀ f, F f f) (halt : Halt) : Halt.UpTo F halt halt := by
  cases halt with
  | fault f => exact hF f
  | missingSlot slot => rfl
  | exhausted => rfl

theorem ResultsUpTo.exhausted_iff {x y : Except Halt String} (h : ResultsUpTo (Halt.UpTo F) x y) :
    x = .error .exhausted ↔ y = .error .exhausted := by
  rcases x with (_ | _ | _) | s <;> rcases y with (_ | _ | _) | t <;> simp_all [ResultsUpTo, Halt.UpTo]

theorem Program.rendersLike_of_rounds
    (h : ∀ rounds, ResultsUpTo (Halt.UpTo F) (p.render options rounds model) (q.render options rounds model)) :
    p.RendersLike F q options model where
  ends := by
    constructor
    · rintro ⟨result, hr⟩
      obtain ⟨hne, rounds, rfl⟩ := Program.renders_iff.1 hr
      exact ⟨_, Program.renders_iff.2 ⟨mt (h rounds).exhausted_iff.2 hne, rounds, rfl⟩⟩
    · rintro ⟨result, hr⟩
      obtain ⟨hne, rounds, rfl⟩ := Program.renders_iff.1 hr
      exact ⟨_, Program.renders_iff.2 ⟨mt (h rounds).exhausted_iff.1 hne, rounds, rfl⟩⟩
  results := by
    intro result result' hp hq
    -- the rounds in which the one ends are enough for the other
    obtain ⟨hne, rounds, rfl⟩ := Program.renders_iff.1 hp
    have hq' := Program.renders_iff.2 ⟨mt (h rounds).exhausted_iff.2 hne, rounds, rfl⟩
    rw [hq.unique hq']
    exact h rounds

end Faults

end Stencil
