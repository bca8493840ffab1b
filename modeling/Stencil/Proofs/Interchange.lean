import Mathlib
import Stencil.Proofs.Coherence
import Stencil.Proofs.Arithmetic
/-!
# Values and JSON are inverse

A value goes to JSON and comes back with `null` for whatever JSON cannot say (`Value.normal`), at every depth; JSON
goes to a value and comes back as it was exactly if its numbers are numbers of values (`Json.Fits`). On both ways
the fields of every object keep their names and their order.
-/

namespace Stencil

/-! ## Induction over nested data -/

/-- Induction over a value and what its arrays and objects hold. -/
theorem Value.nested_induction {P : Value → Prop} (undefined : P .undefined) (null : P .null)
    (bool : ∀ b, P (.bool b)) (integer : ∀ n, P (.integer n)) (real : ∀ x, P (.real x))
    (string : ∀ s, P (.string s)) (array : ∀ items, (∀ v ∈ items, P v) → P (.array items))
    (object : ∀ fields, (∀ field ∈ fields, P field.2) → P (.object fields)) (v : Value) : P v :=
  @Value.rec P (fun items => ∀ v ∈ items, P v) (fun fields => ∀ field ∈ fields, P field.2) (fun field => P field.2)
    undefined null bool integer real string array object
    (by simp) (fun _ _ hv hitems => List.forall_mem_cons.2 ⟨hv, hitems⟩)
    (by simp) (fun _ _ hv hfields => List.forall_mem_cons.2 ⟨hv, hfields⟩)
    (fun _ _ hv => hv) v

/-- Induction over JSON and what its arrays and objects hold. -/
theorem Json.nested_induction {P : Json → Prop} (null : P .null) (bool : ∀ b, P (.bool b))
    (integer : ∀ n, P (.integer n)) (real : ∀ x, P (.real x)) (string : ∀ s, P (.string s))
    (array : ∀ items, (∀ j ∈ items, P j) → P (.array items))
    (object : ∀ fields, (∀ field ∈ fields, P field.2) → P (.object fields)) (j : Json) : P j :=
  @Json.rec P (fun items => ∀ j ∈ items, P j) (fun fields => ∀ field ∈ fields, P field.2) (fun field => P field.2)
    null bool integer real string array object
    (by simp) (fun _ _ hj hitems => List.forall_mem_cons.2 ⟨hj, hitems⟩)
    (by simp) (fun _ _ hj hfields => List.forall_mem_cons.2 ⟨hj, hfields⟩)
    (fun _ _ hj => hj) j

theorem eq_map_of_cons {α β : Type} {F : List α → List β} {f : α → β} (nil : F [] = [])
    (cons : ∀ a rest, F (a :: rest) = f a :: F rest) (items : List α) : F items = items.map f := by
  induction items with
  | nil => exact nil
  | cons a rest ih => rw [cons, ih, List.map_cons]

theorem map_eq_self_iff {α : Type} {f : α → α} {items : List α} : items.map f = items ↔ ∀ a ∈ items, f a = a := by
  nth_rewrite 2 [← List.map_id items]
  exact List.map_inj_left

theorem map_values_eq_self_iff {α : Type} {f : α → α} {fields : Fields α} :
    fields.map (Prod.map id f) = fields ↔ ∀ field ∈ fields, f field.2 = field.2 := by
  rw [map_eq_self_iff]
  simp [Prod.ext_iff]

namespace Value

theorem ofJsonItems_eq (items : List Json) : ofJsonItems items = items.map ofJson :=
  eq_map_of_cons rfl (fun _ _ => rfl) items

theorem ofJsonFields_eq (fields : List (String × Json)) : ofJsonFields fields = fields.map (Prod.map id ofJson) :=
  eq_map_of_cons rfl (fun _ _ => rfl) fields

theorem toJsonItems_eq (items : List Value) : toJsonItems items = items.map toJson :=
  eq_map_of_cons rfl (fun _ _ => rfl) items

theorem toJsonFields_eq (fields : List (String × Value)) : toJsonFields fields = fields.map (Prod.map id toJson) :=
  eq_map_of_cons rfl (fun _ _ => rfl) fields

/-! ## Normal values -/

mutual

/-- The value with `null` for `undefined` and for doubles that are not finite, at every depth. -/
def normal : Value → Value
  | .undefined => .null
  | .real x => if x.isFinite then .real x else .null
  | .array items => .array (normalItems items)
  | .object fields => .object (normalFields fields)
  | v => v

def normalItems : List Value → List Value
  | [] => []
  | v :: rest => v.normal :: normalItems rest

def normalFields : List (String × Value) → List (String × Value)
  | [] => []
  | (name, v) :: rest => (name, v.normal) :: normalFields rest

end

/-- At no depth is there an `undefined` or a double that is not finite. -/
inductive IsNormal : Value → Prop
  | null : IsNormal .null
  | bool (b : Bool) : IsNormal (.bool b)
  | integer (n : Int64) : IsNormal (.integer n)
  | real {x : Binary64} (h : x.isFinite) : IsNormal (.real x)
  | string (s : String) : IsNormal (.string s)
  | array {items : List Value} (h : ∀ v ∈ items, IsNormal v) : IsNormal (.array items)
  | object {fields : List (String × Value)} (h : ∀ field ∈ fields, IsNormal field.2) : IsNormal (.object fields)

theorem normalItems_eq (items : List Value) : normalItems items = items.map normal :=
  eq_map_of_cons rfl (fun _ _ => rfl) items

theorem normalFields_eq (fields : List (String × Value)) : normalFields fields = fields.map (Prod.map id normal) :=
  eq_map_of_cons rfl (fun _ _ => rfl) fields

theorem isNormal_real_iff {x : Binary64} : IsNormal (.real x) ↔ x.isFinite := ⟨fun (.real h) => h, .real⟩

theorem isNormal_array_iff {items : List Value} : IsNormal (.array items) ↔ ∀ v ∈ items, IsNormal v :=
  ⟨fun (.array h) => h, .array⟩

theorem isNormal_object_iff {fields : List (String × Value)} :
    IsNormal (.object fields) ↔ ∀ field ∈ fields, IsNormal field.2 := ⟨fun (.object h) => h, .object⟩

theorem not_isNormal_undefined : ¬IsNormal .undefined := nofun

theorem normal_eq_self_iff {v : Value} : v.normal = v ↔ v.IsNormal := by
  induction v using Value.nested_induction with
  | undefined => exact iff_of_false nofun not_isNormal_undefined
  | null => exact iff_of_true rfl .null
  | bool b => exact iff_of_true rfl (.bool b)
  | integer n => exact iff_of_true rfl (.integer n)
  | string s => exact iff_of_true rfl (.string s)
  | real x =>
    rw [isNormal_real_iff, normal]
    by_cases h : x.isFinite
    · rw [if_pos h]
      exact iff_of_true rfl h
    · rw [if_neg h]
      exact iff_of_false nofun h
  | array items ih =>
    rw [isNormal_array_iff, normal, normalItems_eq, array.injEq, map_eq_self_iff]
    exact forall₂_congr ih
  | object fields ih =>
    rw [isNormal_object_iff, normal, normalFields_eq, object.injEq, map_values_eq_self_iff]
    exact forall₂_congr ih

theorem sameItems_map_iff {f : Value → Value} {items : List Value} :
    sameItems (items.map f) items ↔ ∀ v ∈ items, (f v).same v := by
  induction items with
  | nil => simp [sameItems]
  | cons v rest ih => rw [List.map_cons, sameItems, Bool.and_eq_true, ih, List.forall_mem_cons]

theorem sameFields_map_iff {f : Value → Value} {fields : List (String × Value)} :
    sameFields (fields.map (Prod.map id f)) fields ↔ ∀ field ∈ fields, (f field.2).same field.2 := by
  induction fields with
  | nil => simp [sameFields]
  | cons field rest ih => simp [sameFields, ih]

/-- Only normal values are the same as their normal form; the others have a `null` where they have none. -/
theorem normal_same_iff {v : Value} : v.normal.same v ↔ v.IsNormal := by
  induction v using Value.nested_induction with
  | undefined => exact iff_of_false nofun not_isNormal_undefined
  | null => exact iff_of_true rfl .null
  | bool b => exact iff_of_true (same_iff.2 rfl) (.bool b)
  | integer n => exact iff_of_true (same_iff.2 rfl) (.integer n)
  | string s => exact iff_of_true (same_iff.2 rfl) (.string s)
  | real x =>
    rw [isNormal_real_iff, normal]
    by_cases h : x.isFinite
    · rw [if_pos h]
      exact iff_of_true (Binary64.eq_self (by rintro rfl; cases h)) h
    · rw [if_neg h]
      exact iff_of_false nofun h
  | array items ih =>
    rw [isNormal_array_iff, normal, normalItems_eq, same, sameItems_map_iff]
    exact forall₂_congr ih
  | object fields ih =>
    rw [isNormal_object_iff, normal, normalFields_eq, same, sameFields_map_iff]
    exact forall₂_congr ih

/-! ## To JSON and back -/

theorem ofJson_toJson (v : Value) : ofJson v.toJson = v.normal := by
  induction v using Value.nested_induction with
  | undefined | null | bool | string => rfl
  | integer n =>
    rw [toJson, ofJson, int64?_eq_some_iff.2 rfl]
    rfl
  | real x =>
    rw [toJson, normal]
    split <;> rfl
  | array items ih =>
    rw [toJson, ofJson, normal, toJsonItems_eq, ofJsonItems_eq, normalItems_eq, List.map_map]
    exact congrArg Value.array (List.map_congr_left ih)
  | object fields ih =>
    rw [toJson, ofJson, normal, toJsonFields_eq, ofJsonFields_eq, normalFields_eq, List.map_map]
    exact congrArg Value.object (List.map_congr_left fun field hf => Prod.ext rfl (ih field hf))

end Value

/-! ## From JSON and back -/

/-- At every depth, integers have 64 bits and a sign, and doubles are finite. -/
inductive Json.Fits : Json → Prop
  | null : Fits .null
  | bool (b : Bool) : Fits (.bool b)
  | integer {n : Int} (least : -2 ^ 63 ≤ n) (greatest : n < 2 ^ 63) : Fits (.integer n)
  | real {x : Binary64} (h : x.isFinite) : Fits (.real x)
  | string (s : String) : Fits (.string s)
  | array {items : List Json} (h : ∀ j ∈ items, Fits j) : Fits (.array items)
  | object {fields : List (String × Json)} (h : ∀ field ∈ fields, Fits field.2) : Fits (.object fields)

namespace Json

theorem fits_integer_iff {n : Int} : Fits (.integer n) ↔ ∃ m, int64? n = some m := by
  constructor
  · rintro ⟨⟩
    exact exists_int64? ‹_› ‹_›
  · rintro ⟨m, hm⟩
    obtain rfl := int64?_eq_some_iff.1 hm
    exact .integer m.le_toInt m.toInt_lt

theorem fits_real_iff {x : Binary64} : Fits (.real x) ↔ x.isFinite := ⟨fun (.real h) => h, .real⟩

theorem fits_array_iff {items : List Json} : Fits (.array items) ↔ ∀ j ∈ items, Fits j :=
  ⟨fun (.array h) => h, .array⟩

theorem fits_object_iff {fields : List (String × Json)} :
    Fits (.object fields) ↔ ∀ field ∈ fields, Fits field.2 := ⟨fun (.object h) => h, .object⟩

theorem toJson_real_ne_integer (x : Binary64) (n : Int) : (Value.real x).toJson ≠ .integer n := by
  rw [Value.toJson]
  split <;> simp

theorem toJson_ofJson_iff {j : Json} : (Value.ofJson j).toJson = j ↔ j.Fits := by
  induction j using Json.nested_induction with
  | null => exact iff_of_true rfl .null
  | bool b => exact iff_of_true rfl (.bool b)
  | string s => exact iff_of_true rfl (.string s)
  | integer n =>
    rw [fits_integer_iff, Value.ofJson]
    cases h : int64? n with
    -- beyond 64 bits an integer becomes a double, and stays one
    | none => exact iff_of_false (toJson_real_ne_integer _ n) (by simp)
    | some m => exact iff_of_true (congrArg integer (int64?_eq_some_iff.1 h)) ⟨m, rfl⟩
  | real x =>
    rw [fits_real_iff, Value.ofJson, Value.toJson]
    split <;> simp_all
  | array items ih =>
    rw [fits_array_iff, Value.ofJson, Value.toJson, Value.toJsonItems_eq, Value.ofJsonItems_eq, List.map_map,
      array.injEq, map_eq_self_iff]
    exact forall₂_congr ih
  | object fields ih =>
    rw [fits_object_iff, Value.ofJson, Value.toJson, Value.toJsonFields_eq, Value.ofJsonFields_eq, List.map_map,
      Prod.map_comp_map, Function.comp_id, object.injEq, map_values_eq_self_iff]
    exact forall₂_congr ih

end Json

/-! ## The order of fields -/

/-- The names ascend, so that none occurs twice. -/
def Fields.Ascending {α : Type} (fields : Fields α) : Prop := (fields.map Prod.fst).Pairwise (· < ·)

theorem Fields.ascending_map {α β : Type} {f : α → β} {fields : Fields α} :
    Fields.Ascending (fields.map (Prod.map id f)) ↔ fields.Ascending := by
  rw [Ascending, Ascending, List.map_map]
  rfl

/-- The names of every object ascend, at every depth. -/
inductive Value.KeyOrdered : Value → Prop
  | undefined : KeyOrdered .undefined
  | null : KeyOrdered .null
  | bool (b : Bool) : KeyOrdered (.bool b)
  | integer (n : Int64) : KeyOrdered (.integer n)
  | real (x : Binary64) : KeyOrdered (.real x)
  | string (s : String) : KeyOrdered (.string s)
  | array {items : List Value} (h : ∀ v ∈ items, KeyOrdered v) : KeyOrdered (.array items)
  | object {fields : Fields Value} (names : fields.Ascending) (h : ∀ field ∈ fields, KeyOrdered field.2) :
    KeyOrdered (.object fields)

inductive Json.KeyOrdered : Json → Prop
  | null : KeyOrdered .null
  | bool (b : Bool) : KeyOrdered (.bool b)
  | integer (n : Int) : KeyOrdered (.integer n)
  | real (x : Binary64) : KeyOrdered (.real x)
  | string (s : String) : KeyOrdered (.string s)
  | array {items : List Json} (h : ∀ j ∈ items, KeyOrdered j) : KeyOrdered (.array items)
  | object {fields : Fields Json} (names : fields.Ascending) (h : ∀ field ∈ fields, KeyOrdered field.2) :
    KeyOrdered (.object fields)

theorem Value.keyOrdered_array_iff {items : List Value} : KeyOrdered (.array items) ↔ ∀ v ∈ items, KeyOrdered v :=
  ⟨fun (.array h) => h, .array⟩

theorem Value.keyOrdered_object_iff {fields : Fields Value} :
    KeyOrdered (.object fields) ↔ fields.Ascending ∧ ∀ field ∈ fields, KeyOrdered field.2 :=
  ⟨fun (.object names h) => ⟨names, h⟩, fun ⟨names, h⟩ => .object names h⟩

theorem Json.keyOrdered_array_iff {items : List Json} : KeyOrdered (.array items) ↔ ∀ j ∈ items, KeyOrdered j :=
  ⟨fun (.array h) => h, .array⟩

theorem Json.keyOrdered_object_iff {fields : Fields Json} :
    KeyOrdered (.object fields) ↔ fields.Ascending ∧ ∀ field ∈ fields, KeyOrdered field.2 :=
  ⟨fun (.object names h) => ⟨names, h⟩, fun ⟨names, h⟩ => .object names h⟩

theorem Value.keyOrdered_toJson_iff {v : Value} : v.toJson.KeyOrdered ↔ v.KeyOrdered := by
  induction v using Value.nested_induction with
  | undefined => exact iff_of_true .null .undefined
  | null => exact iff_of_true .null .null
  | bool b => exact iff_of_true (.bool b) (.bool b)
  | integer n => exact iff_of_true (.integer _) (.integer n)
  | string s => exact iff_of_true (.string s) (.string s)
  | real x =>
    rw [toJson]
    split
    next => exact iff_of_true (.real x) (.real x)
    next => exact iff_of_true .null (.real x)
  | array items ih =>
    rw [toJson, toJsonItems_eq, Json.keyOrdered_array_iff, keyOrdered_array_iff, List.forall_mem_map]
    exact forall₂_congr ih
  | object fields ih =>
    rw [toJson, toJsonFields_eq, Json.keyOrdered_object_iff, keyOrdered_object_iff, List.forall_mem_map,
      Fields.ascending_map]
    exact and_congr_right' (forall₂_congr ih)

theorem Value.keyOrdered_ofJson_iff {j : Json} : (ofJson j).KeyOrdered ↔ j.KeyOrdered := by
  induction j using Json.nested_induction with
  | null => exact iff_of_true .null .null
  | bool b => exact iff_of_true (.bool b) (.bool b)
  | real x => exact iff_of_true (.real x) (.real x)
  | string s => exact iff_of_true (.string s) (.string s)
  | integer n =>
    rw [ofJson]
    split
    next m _ => exact iff_of_true (.integer m) (.integer n)
    next => exact iff_of_true (.real _) (.integer n)
  | array items ih =>
    rw [ofJson, ofJsonItems_eq, Json.keyOrdered_array_iff, keyOrdered_array_iff, List.forall_mem_map]
    exact forall₂_congr ih
  | object fields ih =>
    rw [ofJson, ofJsonFields_eq, Json.keyOrdered_object_iff, keyOrdered_object_iff, List.forall_mem_map,
      Fields.ascending_map]
    exact and_congr_right' (forall₂_congr ih)

/--
A value comes back from JSON normal, so that exactly the normal values come back as they were, or as the same; JSON
comes back from a value as it was exactly if its numbers fit. Objects with ascending names have ascending names on
the other side, and only those.
-/
theorem json_inverse (v : Value) (j : Json) :
    Value.ofJson v.toJson = v.normal ∧
    (Value.ofJson v.toJson = v ↔ v.IsNormal) ∧ ((Value.ofJson v.toJson).same v ↔ v.IsNormal) ∧
    ((Value.ofJson j).toJson = j ↔ j.Fits) ∧
    (v.toJson.KeyOrdered ↔ v.KeyOrdered) ∧ ((Value.ofJson j).KeyOrdered ↔ j.KeyOrdered) := by
  rw [Value.ofJson_toJson]
  exact ⟨rfl, Value.normal_eq_self_iff, Value.normal_same_iff, Json.toJson_ofJson_iff, Value.keyOrdered_toJson_iff,
    Value.keyOrdered_ofJson_iff⟩

end Stencil
