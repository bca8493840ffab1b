import Mathlib
import Stencil.Proofs.KeyOrder
import Stencil.Proofs.Runs
import Stencil.Roster
/-!
# The hobbits of every model are listed

`report` says, without template and program, what the command line reports of the hobbits of a model. The template
compiles to `program`, and a round of its loop writes the entry of the round's item, whatever the rounds before it
left in the slots (`itemBody_run`). So the report is right for every model, and where the model is read from a text,
the fields of an object are listed by ascending names (`hobbits_listed`).
-/

namespace Stencil.Roster

/-! ## What is reported -/

/-- The text of a field of an item; missing data has none. -/
def fieldText (item : Value) (name : String) : String :=
  match item.member name with
  | .undefined | .null => ""
  | v => v.text

def entry (item : Value) : String :=
  "<li>" ++ fieldText item "name" ++ " (" ++ fieldText item "age" ++ ")</li>"

def listed (items : List Value) : Report := ⟨true, "<ul>" ++ String.join (items.map entry) ++ "</ul>\n", ""⟩

def refused (found : Kind) : Report := failure ((Fault.notIterable found).message ++ "\n")

/-- What the command line reports of the hobbits of a model. -/
def report : Value → Report
  | .undefined | .null => listed []
  | .array items => listed items
  | .object fields => listed (fields.map Prod.snd)
  | .string s => listed (s.toList.map fun c => .string (.singleton c))
  | .bool _ => refused .boolean
  | .integer _ | .real _ => refused .number

/-! ## The program of the template -/

def itemBody : Block := .mk [1] [
  .declare ⟨1, "name"⟩ (.member (.variable ⟨0, "hobbit"⟩) "name"),
  .write "<li>",
  .emit (.variable ⟨1, "name"⟩),
  .write " (",
  .emit (.member (.variable ⟨0, "hobbit"⟩) "age"),
  .write ")</li>"]

def hobbits : Term := .member (.model "model") "hobbits"

def loop : Step := .each ⟨0, "hobbit"⟩ hobbits itemBody

def program : Program := ⟨.mk [] [.write "<ul>", loop, .write "</ul>"], 2⟩

theorem compile_template : (compile template).result = .ok program := rfl

theorem ofTemplate_template : ViewType.ofTemplate template default = .ok ⟨program, default⟩ := by
  rw [ViewType.ofTemplate, compile_template]
  rfl

/-! ## One round and all rounds -/

section Rounds
variable {model : Value}

theorem textOf_member (item : Value) (name : String) :
    (default : Options).textOf (item.member name) = fieldText item name := by
  unfold Options.textOf fieldText
  cases item.member name <;> rfl

/-- What the round before left in the slot of the name is not shown. -/
theorem itemBody_run (rounds : Nat) (item old : Value) (out : String) (k : Nat) :
    itemBody.run default rounds ⟨#[item, old], model, out, k⟩ =
      .ok () ⟨#[item, item.member "name"], model, out ++ entry item, k⟩ := by
  have hrun : itemBody.run default rounds ⟨#[item, old], model, out, k⟩ =
      .ok () ⟨#[item, item.member "name"], model,
        out ++ "<li>" ++ (default : Options).textOf (item.member "name") ++ " (" ++
          (default : Options).textOf (item.member "age") ++ ")</li>", k⟩ := rfl
  rw [hrun, textOf_member, textOf_member, entry]
  simp only [String.append_assoc]

def round (rounds : Nat) (item : Value) : Exec Unit := do
  Exec.tick none
  Exec.eval fun _ => Eval.set 0 item
  itemBody.run default rounds

theorem round_run (rounds : Nat) (item first old : Value) (out : String) (k : Nat) :
    round rounds item ⟨#[first, old], model, out, k⟩ =
      .ok () ⟨#[item, item.member "name"], model, out ++ entry item, k + 1⟩ :=
  itemBody_run rounds item old out (k + 1)

theorem rounds_run (rounds : Nat) (items : List Value) (first old : Value) (out : String) (k : Nat) :
    ∃ slots k', items.forM (round rounds) ⟨#[first, old], model, out, k⟩ =
      .ok () ⟨slots, model, out ++ String.join (items.map entry), k'⟩ := by
  -- each round starts from slots that the one before it has set, so the induction is over all contents of the slots
  induction items generalizing first old out k with
  | nil =>
    refine ⟨#[first, old], k, ?_⟩
    rw [List.map_nil, String.join_nil, String.append_empty]
    rfl
  | cons item rest ih =>
    obtain ⟨slots, k', hrest⟩ := ih item (item.member "name") (out ++ entry item) (k + 1)
    refine ⟨slots, k', ?_⟩
    rw [List.map_cons, String.join_cons, ← String.append_assoc, ← hrest]
    exact bind_of_ok (round_run rounds item first old out k)

end Rounds

/-! ## The whole run -/

section Render
variable {model : Value} {rounds : Nat}

theorem hobbits_run (m : Machine) : hobbits.run m = .ok (m.model.member "hobbits") m := rfl

theorem loop_run_eq : loop.run default rounds =
    hobbits.run >>= fun v => Exec.ofExcept v.items >>= fun items => items.forM (round rounds) := rfl

theorem program_run_eq : program.body.run default rounds (program.start model) =
    (loop.run default rounds >>= fun _ => Exec.write "</ul>") ⟨#[.undefined, .undefined], model, "<ul>", 0⟩ := rfl

theorem program_render_of_items {items : List Value} (h : (model.member "hobbits").items = .ok items) :
    program.render default rounds model = .ok ("<ul>" ++ String.join (items.map entry) ++ "</ul>") := by
  obtain ⟨slots, k, hitems⟩ := rounds_run rounds items .undefined .undefined "<ul>" 0
  have hloop : loop.run default rounds ⟨#[.undefined, .undefined], model, "<ul>", 0⟩ =
      .ok () ⟨slots, model, "<ul>" ++ String.join (items.map entry), k⟩ := by
    rw [loop_run_eq, bind_of_ok (hobbits_run _), h]
    exact hitems
  rw [Program.render, program_run_eq, bind_of_ok hloop]
  rfl

theorem program_render_of_fault {fault : Fault} (h : (model.member "hobbits").items = .error fault) :
    program.render default rounds model = .error (.fault fault) := by
  have hloop : loop.run default rounds ⟨#[.undefined, .undefined], model, "<ul>", 0⟩ =
      .error (.fault fault) ⟨#[.undefined, .undefined], model, "<ul>", 0⟩ := by
    rw [loop_run_eq, bind_of_ok (hobbits_run _), h]
    rfl
  rw [Program.render, program_run_eq, bind_of_error hloop]

end Render

theorem render_eq (model : Json) :
    render model =
      match program.render default 1 (.ofJson model) with
      | .ok text => ⟨true, text ++ "\n", ""⟩
      | .error (.fault fault) => failure (fault.message ++ "\n")
      | .error _ => failure "" := by
  rw [render, ofTemplate_template]
  rfl

theorem render_of_items {model : Json} {items : List Value}
    (h : ((Value.ofJson model).member "hobbits").items = .ok items) : render model = listed items := by
  rw [render_eq, program_render_of_items h]
  simp only [listed, String.append_assoc]
  rfl

theorem render_of_fault {model : Json} {fault : Fault}
    (h : ((Value.ofJson model).member "hobbits").items = .error fault) :
    render model = failure (fault.message ++ "\n") := by
  rw [render_eq, program_render_of_fault h]

theorem render_eq_report (model : Json) : render model = report ((Value.ofJson model).member "hobbits") := by
  cases h : (Value.ofJson model).member "hobbits" with
  | undefined | null | array | object | string => exact render_of_items (by rw [h]; rfl)
  | bool | integer | real => exact render_of_fault (by rw [h]; rfl)

/-! ## Models that are read -/

theorem builtInModel_keyOrdered : builtInModel.KeyOrdered := by
  have hitem (age : Int) (name : String) : Json.KeyOrdered (.object [("age", .integer age), ("name", .string name)]) :=
    (Json.keyOrdered_empty.insert "name" (.string name)).insert "age" (.integer age)
  exact Json.keyOrdered_empty.insert "hobbits" (.array (by simp [hitem]))

theorem load_keyOrdered {source : Source} {model : Json} (h : load source = some model) : model.KeyOrdered := by
  cases source with
  | builtIn =>
    cases h
    exact builtInModel_keyOrdered
  | text json => exact Json.parse?_keyOrdered h
  | unreadable => cases h

/--
The template compiles, and the report on a model is `report` of its hobbits. The names of every object in a model
from a source ascend, and with them those of the hobbits, so that fields are listed in the order of their names.
-/
theorem hobbits_listed (model : Json) :
    (∃ type, ViewType.ofTemplate template default = .ok type) ∧
    render model = report ((Value.ofJson model).member "hobbits") ∧
    (model.KeyOrdered → ((Value.ofJson model).member "hobbits").KeyOrdered) ∧
    ∀ source, load source = some model →
      model.KeyOrdered ∧ run source = report ((Value.ofJson model).member "hobbits") := by
  refine ⟨⟨_, ofTemplate_template⟩, render_eq_report model, fun h => ?_, fun source h => ⟨load_keyOrdered h, ?_⟩⟩
  · exact (Value.keyOrdered_ofJson_iff.2 h).member "hobbits"
  · rw [run, h]
    exact render_eq_report model

/-- Hobbits by letter, the later letter first, one of them a mere name. -/
def lettered : Source :=
  .text "\x7b\"hobbits\":\x7b\"b\":\x7b\"name\":\"Bilbo\",\"age\":[111,null]\x7d,\"a\":\"Frodo\"\x7d\x7d"

def letteredModel : Json :=
  .object [("hobbits", .object [
    ("a", .string "Frodo"),
    ("b", .object [("age", .array [.integer 111, .null]), ("name", .string "Bilbo")])])]

theorem hobbits_listed_lettered :
    load lettered = some letteredModel ∧ ((Value.ofJson letteredModel).member "hobbits").KeyOrdered ∧
    (run lettered).success ∧ (run lettered).stdout = "<ul><li> ()</li><li>Bilbo (111,)</li></ul>\n" ∧
    render (.object [("hobbits", .bool true)]) = failure "Cannot iterate over a boolean\n" := by
  have hload : load lettered = some letteredModel := rfl
  obtain ⟨-, -, hmember, hsource⟩ := hobbits_listed letteredModel
  obtain ⟨hordered, hrun⟩ := hsource lettered hload
  refine ⟨hload, hmember hordered, ?_, ?_, ?_⟩
  · rw [hrun]
    rfl
  · rw [hrun]
    decide +kernel
  · rw [(hobbits_listed (.object [("hobbits", .bool true)])).2.1]
    rfl

end Stencil.Roster
