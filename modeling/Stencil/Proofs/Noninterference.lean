import Mathlib
import Stencil.Proofs.Concatenation
import Stencil.View
/-!
# What a render sees of its model

A program reads from the model and stores to it under the names that stand in it (`Program.modelNames`).
Unless the name of the whole model is one of them, the fields under these names are all that a render can
tell of an object (`names_matched`), through stores, loops and faults. A program that stores nothing to the
model cannot tell an empty object from a model that has no fields at all.
-/

namespace Stencil

/-! ## Names of the model -/

def Root.modelNames : Root → List String
  | .variable _ => []
  | .model name => [name]

mutual

/-- The names of the model that the step reads or stores to. -/
def Step.modelNames : Step → List String
  | .write _ => []
  | .emit e | .declare _ e | .assign _ e | .eval e => e.modelNames
  | .store place e => place.root.modelNames ++ e.modelNames
  | .block body => body.modelNames
  | .when condition body => condition.modelNames ++ body.modelNames
  | .choose condition body otherwise => condition.modelNames ++ body.modelNames ++ otherwise.modelNames
  | .loop _ initial condition update body =>
    initial.modelNames ++ condition.modelNames ++ update.modelNames ++ body.modelNames
  | .each _ collection body => collection.modelNames ++ body.modelNames
  | .switch subject body => subject.modelNames ++ body.modelNames
  | .label _ guard =>
    match guard with
    | some e => e.modelNames
    | none => []

def Block.modelNames : Block → List String
  | .mk _ steps => Step.modelNamesAll steps

def Step.modelNamesAll : List Step → List String
  | [] => []
  | step :: rest => step.modelNames ++ Step.modelNamesAll rest

end

def Program.modelNames (program : Program) : List String := program.body.modelNames

section Names
variable {N : String → Prop}

def Term.Names (N : String → Prop) (e : Term) : Prop := ∀ name ∈ e.modelNames, N name

def Place.Names (N : String → Prop) (place : Place) : Prop := ∀ name ∈ place.root.modelNames, N name

mutual

theorem Step.every_names : ∀ step : Step, (∀ name ∈ step.modelNames, N name) →
    step.Every (Term.Names N) (fun _ => True) (Place.Names N)
  | .write _, _ | .label _ none, _ => trivial
  | .emit _, h | .eval _, h | .label _ (some _), h => h
  | .declare _ _, h | .assign _ _, h => ⟨trivial, h⟩
  | .store _ _, h => List.forall_mem_append.1 h
  | .block body, h => Block.every_names body h
  | .when _ body, h | .switch _ body, h => by
    obtain ⟨hc, hb⟩ := List.forall_mem_append.1 h
    exact ⟨hc, Block.every_names body hb⟩
  | .choose _ body otherwise, h => by
    obtain ⟨hcb, ho⟩ := List.forall_mem_append.1 h
    obtain ⟨hc, hb⟩ := List.forall_mem_append.1 hcb
    exact ⟨hc, Block.every_names body hb, Block.every_names otherwise ho⟩
  | .loop _ initial _ update body, h => by
    obtain ⟨hicu, hb⟩ := List.forall_mem_append.1 h
    obtain ⟨hic, hu⟩ := List.forall_mem_append.1 hicu
    obtain ⟨hi, hc⟩ := List.forall_mem_append.1 hic
    exact ⟨fun _ _ => trivial, Step.every_names initial hi, hc, Step.every_names update hu, Block.every_names body hb⟩
  | .each _ _ body, h => by
    obtain ⟨hc, hb⟩ := List.forall_mem_append.1 h
    exact ⟨trivial, hc, Block.every_names body hb⟩

theorem Block.every_names : ∀ b : Block, (∀ name ∈ b.modelNames, N name) →
    b.Every (Term.Names N) (fun _ => True) (Place.Names N)
  | .mk _ steps, h => ⟨fun _ _ => trivial, Step.everyAll_names steps h⟩

theorem Step.everyAll_names : ∀ steps : List Step, (∀ name ∈ Step.modelNamesAll steps, N name) →
    Step.EveryAll (Term.Names N) (fun _ => True) (Place.Names N) steps
  | [], _ => trivial
  | step :: rest, h => by
    obtain ⟨hs, hr⟩ := List.forall_mem_append.1 h
    exact ⟨Step.every_names step hs, Step.everyAll_names rest hr⟩

end

end Names

/-! ## Models seen through names -/

/-- The models have the same fields under the names in `N`. -/
def SeenAlike (N : String → Prop) (a b : Value) : Prop := ∀ name, N name → modelField a name = modelField b name

section Models
variable {N : String → Prop}

theorem SeenAlike.insert {fields fields' : List (String × Value)} (hN : ∀ other, N other → other ≠ modelName)
    (h : SeenAlike N (.object fields) (.object fields')) (name : String) (w : Value) :
    SeenAlike N (.object (Fields.insert name w fields)) (.object (Fields.insert name w fields')) := by
  intro other hother
  have seen := h other hother
  rw [modelField_object (hN other hother), modelField_object (hN other hother)] at seen ⊢
  by_cases heq : other = name
  · rw [heq, Fields.get?_insert_self, Fields.get?_insert_self]
  · rw [Fields.get?_insert_of_ne heq, Fields.get?_insert_of_ne heq, seen]

/-- A model without fields reads like the empty object. -/
theorem seenAlike_empty (hN : ∀ other, N other → other ≠ modelName) {a : Value} (h : ∀ fields, a ≠ .object fields) :
    SeenAlike N a (.object []) := by
  intro name hname
  rw [modelField_object (hN name hname)]
  cases a with
  | object fields => exact (h fields rfl).elim
  | _ => simp [modelField, resolveModel?, hN name hname, Fields.get?]

/-- Objects seen alike, as a store to either finds them. -/
def ObjectsAlike (N : String → Prop) (a b : Value) : Prop :=
  (∃ fields, a = .object fields) ∧ (∃ fields, b = .object fields) ∧ SeenAlike N a b

end Models

/-! ## Programs on models that they see alike -/

section Programs
variable {N : String → Prop} {M : Value → Value → Prop} {term : Term → Prop} {place : Place → Prop}

/-- Terms see only the names in them, so that stores decide whether the models stay related. -/
theorem names_matched (hM : ∀ a b, M a b → SeenAlike N a b) (hterm : ∀ e, term e → e.Names N)
    (hstore : ∀ name path v, place ⟨.model name, path⟩ →
      AgreesUpTo Eq (Besides M) (Besides M) (Exec.store ⟨.model name, path⟩ v) (Exec.store ⟨.model name, path⟩ v))
    (limit : Option UInt64) : Matched Eq .same (Besides M) limit term (fun _ => True) place := by
  refine besides_matched (fun _ => rfl) (fun _ => rfl) (fun _ => rfl) (fun e he a b hab => ?_) (fun target v hp => ?_)
    limit
  · have seen (name : String) (hname : N name) :
        AgreesUpTo Eq Eq Eq (pure (modelField a name)) ((Term.model name).eval b) := by
      rw [hM a b hab name hname]
      exact .pure _
    have agree := Term.replace_agrees_besides (fun _ => rfl) (fun x => congrArg Local.slot (id_eq x)) (fun _ _ _ => rfl)
      seen e (hterm e he)
    rwa [Term.replace_self] at agree
  · obtain ⟨x | name, path⟩ := target
    · exact store_variable_besides (fun _ => rfl) rfl (fun _ => rfl) v
    · exact hstore name path v hp

theorem store_objectsAlike (hN : ∀ other, N other → other ≠ modelName) {name : String} (hname : N name)
    (path : List String) (v : Value) :
    AgreesUpTo Eq (Besides (ObjectsAlike N)) (Besides (ObjectsAlike N)) (Exec.store ⟨.model name, path⟩ v)
      (Exec.store ⟨.model name, path⟩ v) := by
  refine store_model_besides ?_
  rintro _ _ ⟨⟨fields, rfl⟩, ⟨fields', rfl⟩, hseen⟩
  rw [storeModel_object (hN name hname), storeModel_object (hN name hname), hseen name hname]
  cases v.store path (modelField (.object fields') name) with
  | ok w => exact ⟨⟨_, rfl⟩, ⟨_, rfl⟩, hseen.insert hN name w⟩
  | error fault => rfl

variable {program : Program} {options : Options}

theorem Program.render_of_matched {slot : Nat → Prop}
    (h : Matched Eq .same (Besides M) options.iterationLimit term slot place)
    (hp : program.body.Every term slot place) (rounds : Nat) {a b : Value} (hab : M a b) :
    program.render options rounds a = program.render options rounds b := by
  have results := Program.map_renders h hp hab rounds
  rw [Program.map_same] at results
  exact results.eq

/-- Stores to an object keep it like another that the program cannot tell from it. -/
theorem Program.render_objectsAlike (h : modelName ∉ program.modelNames) (rounds : Nat) {a b : Value}
    (hab : ObjectsAlike (· ∈ program.modelNames) a b) :
    program.render options rounds a = program.render options rounds b := by
  have apart : ∀ other ∈ program.modelNames, other ≠ modelName := fun other ho heq => h (heq ▸ ho)
  have every := Block.every_names program.body fun _ hn => hn
  refine Program.render_of_matched (names_matched (fun _ _ hM => hM.2.2) (fun _ he => he) ?_ _) every rounds hab
  intro name path v hp
  exact store_objectsAlike apart (hp name (by simp [Root.modelNames])) path v

/-- Without stores to the model, what is read of it decides alone. -/
theorem Program.render_seenAlike (hlocal : program.body.StoresLocally) (rounds : Nat) {a b : Value}
    (hab : SeenAlike (· ∈ program.modelNames) a b) :
    program.render options rounds a = program.render options rounds b := by
  have every := (Block.every_names program.body fun _ hn => hn).and hlocal
  simp only [and_true] at every
  refine Program.render_of_matched (names_matched (fun _ _ hM => hM) (fun _ he => he) ?_ _) every rounds hab
  intro name path v hp
  exact hp.2.elim

end Programs

/--
Unless a program names the whole model, it renders alike on objects that have the same fields under the
names in it: with the same text, the same fault, or without end. If it stores nothing to the model either,
then an absent model and all that are no objects render like the empty object.
-/
theorem render_noninterference (type : ViewType) (h : modelName ∉ type.program.modelNames) :
    (∀ fields fields' : Fields Value,
      (∀ name ∈ type.program.modelNames, fields.get? name = fields'.get? name) →
      (type.instantiate (some (.object fields))).render = (type.instantiate (some (.object fields'))).render) ∧
    (type.program.body.StoresLocally → ∀ model : Option Value, (∀ fields, model ≠ some (.object fields)) →
      (type.instantiate model).render = (type.instantiate (some (.object []))).render) := by
  have apart : ∀ other ∈ type.program.modelNames, other ≠ modelName := fun other ho heq => h (heq ▸ ho)
  refine ⟨fun fields fields' hsame => funext fun rounds => ?_, fun hlocal model hmodel => funext fun rounds => ?_⟩
  · refine Program.render_objectsAlike h rounds ⟨⟨fields, rfl⟩, ⟨fields', rfl⟩, fun name hname => ?_⟩
    change modelField (.object fields) name = modelField (.object fields') name
    rw [modelField_object (apart name hname), modelField_object (apart name hname), hsame name hname]
  · refine Program.render_seenAlike hlocal rounds (seenAlike_empty apart fun fields hfields => ?_)
    cases model with
    | none => exact Value.noConfusion hfields
    | some v => exact hmodel fields (congrArg some hfields)

/-- Stores the items one after the other below a name of the model, then reads them under another. -/
def collecting : ViewType where
  program := ⟨.mk [0] [
    .store ⟨.model "last", []⟩ (.model "box"),
    .each ⟨0, "item"⟩ (.model "items") (.mk [] [.store ⟨.model "last", ["item"]⟩ (.variable ⟨0, "item"⟩)]),
    .emit (.member (.model "last") "item"), .emit (.model "box")], 1⟩
  options := ⟨"-", some 2⟩

/-- Lists the items, and stores to a variable of its own only. -/
def listing : ViewType where
  program := ⟨.mk [0, 1] [
    .declare ⟨0, "seen"⟩ (.model "seen"),
    .each ⟨1, "item"⟩ (.model "items") (.mk [] [.emit (.variable ⟨1, "item"⟩)]),
    .store ⟨.variable ⟨0, "seen"⟩, ["all"]⟩ (.const (.bool true))], 2⟩
  options := ⟨"-", none⟩

theorem render_noninterference_examples :
    modelName ∉ collecting.program.modelNames ∧ modelName ∉ listing.program.modelNames ∧
      listing.program.body.StoresLocally ∧
      (collecting.instantiate (some (.object
          [("box", .object []), ("items", .array [.null]), ("pin", .null)]))).render =
        (collecting.instantiate (some (.object [("box", .object []), ("items", .array [.null])]))).render ∧
      (listing.instantiate none).render = (listing.instantiate (some (.object []))).render ∧
      (listing.instantiate (some (.string "items"))).render = (listing.instantiate (some (.object []))).render := by
  have apart : modelName ∉ collecting.program.modelNames := by decide
  have apart' : modelName ∉ listing.program.modelNames := by decide
  have hlocal : listing.program.body.StoresLocally := by
    simp [listing, Block.StoresLocally, Block.Every, Step.EveryAll, Step.Every, Place.IsLocal]
  refine ⟨apart, apart', hlocal, (render_noninterference collecting apart).1 _ _ ?_,
    (render_noninterference listing apart').2 hlocal none (by simp),
    (render_noninterference listing apart').2 hlocal _ (by simp)⟩
  intro name hname
  have hnot : name ≠ "pin" := by
    rintro rfl
    exact absurd hname (by decide)
  simp [Fields.get?, hnot]

end Stencil
