import Mathlib
import Stencil.Proofs.Mapping
/-!
# Two spellings of model data

A field of the model has a name of its own, and it is a member of the whole model. `Program.viaModel` writes
the first as the second everywhere, in terms and in the places that are stored to. On an object both read the
same field (`modelField_eq_member`), and a store through either makes the same object or fails
(`storeModel_viaModel`), so that the two programs stay in step for as long as the model is an object.
-/

namespace Stencil

def Term.viaModel : Term → Term :=
  Term.replace id fun name => if name = modelName then .model name else .member (.model modelName) name

def Place.viaModel (place : Place) : Place :=
  match place.root with
  | .variable _ => place
  | .model name => if name = modelName then place else ⟨.model modelName, name :: place.path⟩

theorem Place.viaModel_whole (path : List String) :
    Place.viaModel ⟨.model modelName, path⟩ = ⟨.model modelName, path⟩ := by
  simp [Place.viaModel]

theorem Place.viaModel_of_ne {name : String} (h : name ≠ modelName) (path : List String) :
    Place.viaModel ⟨.model name, path⟩ = ⟨.model modelName, name :: path⟩ := by
  simp [Place.viaModel, h]

/-- The program with every name of the model read and stored to as a member of the whole model. -/
def Program.viaModel (program : Program) : Program := program.map ⟨id, Term.viaModel, Place.viaModel, id⟩

/-- Failed stores may name different places for different reasons; other faults are the same. -/
def Fault.SameButPlace : Fault → Fault → Prop
  | .invalidAssignment _ _, .invalidAssignment _ _ => True
  | f, g => f = g

theorem Fault.sameButPlace_self (f : Fault) : f.SameButPlace f := by
  cases f <;> trivial

/-- The two models are the same object. -/
def SameObject (a b : Value) : Prop := a = b ∧ ∃ fields, a = .object fields

/-! ## Reads and stores through the whole model -/

section Objects
variable {name : String} {fields : List (String × Value)}

theorem modelField_eq_member (h : name ≠ modelName) :
    modelField (.object fields) name = (modelField (.object fields) modelName).member name := by
  rw [modelField_object h]
  simp [modelField, resolveModel?, Value.member]

/-- Unless it fails, a store below a field of an object is a store into that field. -/
theorem store_cons_object (v : Value) (name : String) (path : List String) (fields : List (String × Value)) :
    v.store (name :: path) (.object fields) =
        (v.store path ((Fields.get? name fields).getD .undefined)).map (.object <| Fields.insert name · fields) ∨
      ∃ fault fault', v.store (name :: path) (.object fields) = .error fault ∧
        v.store path ((Fields.get? name fields).getD .undefined) = .error fault' := by
  cases path with
  | nil => exact .inl rfl
  | cons next rest =>
    cases hg : Fields.get? name fields with
    | some inner =>
      left
      simp only [Value.store, hg, Option.getD_some]
      cases v.store (next :: rest) inner <;> rfl
    | none =>
      -- the one finds no field to go on from, the other finds `undefined`
      right
      refine ⟨.absent name, ?_⟩
      cases rest <;> simp [Value.store, hg]

theorem store_object_ok {v w : Value} {path : List String} (h : v.store (name :: path) (.object fields) = .ok w) :
    ∃ fields', w = .object fields' := by
  rcases store_cons_object v name path fields with heq | ⟨_, _, heq, -⟩
  · rw [heq] at h
    cases hs : v.store path ((Fields.get? name fields).getD .undefined) with
    | ok inner =>
      rw [hs] at h
      exact ⟨_, (Except.ok.inj h).symm⟩
    | error fault =>
      rw [hs] at h
      cases h
  · rw [heq] at h
    cases h

/-- A store to a name of an object, and the store to the member of the whole model. -/
theorem storeModel_viaModel (h : name ≠ modelName) (v : Value) (path : List String) (fields : List (String × Value)) :
    (∃ fields', storeModel v name path (.object fields) = .ok (.object fields') ∧
      storeModel v modelName (name :: path) (.object fields) = .ok (.object fields')) ∨
    ∃ fault fault', storeModel v name path (.object fields) = .error fault ∧
      storeModel v modelName (name :: path) (.object fields) = .error fault' := by
  have whole : storeModel v modelName (name :: path) (.object fields) = v.store (name :: path) (.object fields) :=
    if_pos rfl
  rw [whole, storeModel_object h, modelField_object h]
  rcases store_cons_object v name path fields with heq | ⟨fault, fault', hm, hf⟩
  · rw [heq]
    cases v.store path ((Fields.get? name fields).getD .undefined) with
    | ok w => exact .inl ⟨_, rfl, rfl⟩
    | error fault => exact .inr ⟨fault, fault, rfl, rfl⟩
  · rw [hm, hf]
    exact .inr ⟨fault', fault, rfl, rfl⟩

end Objects

/-! ## Programs in the two spellings -/

theorem Term.viaModel_agrees (e : Term) {a b : Value} (h : SameObject a b) :
    AgreesUpTo (Halt.UpTo Fault.SameButPlace) Eq Eq (e.eval a) (e.viaModel.eval b) := by
  obtain ⟨rfl, fields, rfl⟩ := h
  have same := Halt.upTo_self Fault.sameButPlace_self
  refine Term.replace_agrees_besides (N := fun _ => True) same (fun _ => rfl) (fun _ _ _ => rfl) (fun name _ => ?_) e
    fun _ _ => trivial
  by_cases hname : name = modelName
  · rw [if_pos hname]
    exact .pure _
  · rw [if_neg hname, modelField_eq_member hname]
    exact .bind (.pure _) fun _ => .pure _

theorem store_viaModel_agrees {target : Place} (h : target ≠ ⟨.model modelName, []⟩) (v : Value) :
    AgreesUpTo (Halt.UpTo Fault.SameButPlace) (Besides SameObject) (Besides SameObject) (Exec.store target v)
      (Exec.store target.viaModel v) := by
  obtain ⟨x | name, path⟩ := target
  · exact store_variable_besides (Halt.upTo_self Fault.sameButPlace_self) rfl (fun _ => trivial) v
  · by_cases hname : name = modelName
    · -- the place stays as it is; below the whole model, a store leaves an object an object
      subst hname
      rw [Place.viaModel_whole]
      refine store_model_besides ?_
      rintro _ _ ⟨rfl, fields, rfl⟩
      have whole : storeModel v modelName path (.object fields) = v.store path (.object fields) := if_pos rfl
      rw [whole]
      cases path with
      | nil => exact (h rfl).elim
      | cons next rest =>
        cases hs : v.store (next :: rest) (.object fields) with
        | ok w => exact ⟨rfl, store_object_ok hs⟩
        | error fault => trivial
    · rw [Place.viaModel_of_ne hname]
      refine store_model_besides ?_
      rintro _ _ ⟨rfl, fields, rfl⟩
      rcases storeModel_viaModel hname v path fields with ⟨fields', hx, hy⟩ | ⟨fault, fault', hx, hy⟩
      · rw [hx, hy]
        exact ⟨rfl, fields', rfl⟩
      · rw [hx, hy]
        trivial

/--
A program that never replaces the whole model renders an object like the program that names the data of the
model as members of it: either comes to an end if the other does, with the same text or the same fault, where a
failed store may name its place differently.
-/
theorem viaModel_rendersLike (program : Program)
    (h : program.body.Every (fun _ => True) (fun _ => True) (· ≠ ⟨.model modelName, []⟩)) (options : Options)
    (fields : Fields Value) :
    program.RendersLike Fault.SameButPlace program.viaModel options (.object fields) := by
  refine Program.rendersLike_of_rounds fun rounds => ?_
  have matched : Matched (Halt.UpTo Fault.SameButPlace) ⟨id, Term.viaModel, Place.viaModel, id⟩ (Besides SameObject)
      options.iterationLimit (fun _ => True) (fun _ => True) (· ≠ ⟨.model modelName, []⟩) :=
    besides_matched (Halt.upTo_self Fault.sameButPlace_self) (fun _ => rfl) (fun _ => rfl)
      (fun e _ _ _ hM => e.viaModel_agrees hM) (fun _ v hp => store_viaModel_agrees hp v) _
  exact Program.map_renders matched h ⟨rfl, fields, rfl⟩ rounds

/-- Reads and stores in both spellings, in a loop, and below a field that may be missing. -/
def bothSpellings : Program := ⟨.mk [] [
  .loop [] (.store ⟨.model "count", []⟩ (.const (.integer 0)))
    (.binary (.order .less) (.member (.model modelName) "count") (.model "limit"))
    (.store ⟨.model modelName, ["count"]⟩ (.binary (.arithmetic .add) (.model "count") (.const (.integer 1))))
    (.mk [] [.emit (.model "count")]),
  .store ⟨.model "box", ["size"]⟩ (.model "count"),
  .emit (.member (.member (.model modelName) "box") "size")], 0⟩

theorem viaModel_rendersLike_bothSpellings :
    bothSpellings.body.Every (fun _ => True) (fun _ => True) (· ≠ ⟨.model modelName, []⟩) ∧
      bothSpellings.RendersLike Fault.SameButPlace bothSpellings.viaModel ⟨"-", some 9⟩
        (.object [("limit", .integer 2)]) ∧
      bothSpellings.RendersLike Fault.SameButPlace bothSpellings.viaModel ⟨"-", some 9⟩
        (.object [("box", .object []), ("limit", .integer 2)]) := by
  have h : bothSpellings.body.Every (fun _ => True) (fun _ => True) (· ≠ ⟨.model modelName, []⟩) := by
    simp [bothSpellings, Block.Every, Step.EveryAll, Step.Every, modelName]
  exact ⟨h, viaModel_rendersLike _ h _ _, viaModel_rendersLike _ h _ _⟩

end Stencil
