import Mathlib
import Stencil.Proofs.Binders
/-!
# Scopes and their history

A scope knows what was done to it since it was new. The history alone says how many frames are open (`depth`)
and what each of them declared (`declaredOut`), by looking back from its end: a declaration stands `k` frames out
if `k` of the frames opened since are still open. The frames of the scope are these (`after_frames`), and all
that a scope answers follows from that.
-/

namespace Stencil.Scope

/-! ## Histories -/

inductive Op where
  | push
  | pop
  | declare (name : String)
  | bind (name : String)
  | resolve (name : String)
deriving DecidableEq

def Op.apply (scope : Scope) : Op → Scope
  | .push => scope.push
  | .pop => scope.pop.2
  | .declare name => (scope.declare name).2
  | .bind name => (scope.bind name).2.2
  | .resolve _ => scope

/-- The scope after the operations on a new one. -/
def after (ops : List Op) : Scope := ops.foldl Op.apply empty

/-- The declaration that the operation makes: its name, and the slot that it is given. -/
def Op.created? (scope : Scope) : Op → Option Local
  | .declare name => some ⟨(scope.declare name).1.slot, name⟩
  | .bind name => if (scope.bind name).2.1 then some ⟨(scope.bind name).1.slot, name⟩ else none
  | _ => none

/-- The declaration that a history makes at a position. -/
def createdAt? (ops : List Op) (i : Nat) : Option Local := ops[i]?.bind (Op.created? (after (ops.take i)))

/-- The declarations, in order, for which `later` holds of the operations after them. -/
def declarations (later : List Op → Bool) (ops : List Op) : List Local :=
  (List.range ops.length).filterMap fun i => if later (ops.drop (i + 1)) then createdAt? ops i else none

def created (ops : List Op) : List Local := declarations (fun _ => true) ops

/-- The number of open frames after the operation; a declaration opens one if there is none. -/
def Op.depth (d : Nat) : Op → Nat
  | .push => d + 1
  | .pop => d - 1
  | .declare _ | .bind _ => max d 1
  | .resolve _ => d

/-- The number of open frames. -/
def depth (ops : List Op) : Nat := ops.foldl Op.depth 0

/-- How many frames are open if there were `k`; none if the operation closes a frame that is not among them. -/
def Op.opened? (k : Nat) : Op → Option Nat
  | .push => some (k + 1)
  | .pop => if k = 0 then none else some (k - 1)
  | _ => some k

/-- How many of the frames that the operations open are left open; none if they close a frame opened before. -/
def opened? (ops : List Op) : Option Nat := ops.foldlM Op.opened? 0

/-- The declarations of the frame that is `k` frames out from the innermost one, in order. -/
def declaredOut (ops : List Op) (k : Nat) : List Local := declarations (fun later => opened? later = some k) ops

/-- The newest declaration of the name in the innermost frame that has one. -/
def Newest (ops : List Op) (name : String) (x : Local) : Prop :=
  ∃ k older newer, declaredOut ops k = older ++ x :: newer ∧ x.name = name ∧ (∀ y ∈ newer, y.name ≠ name) ∧
    ∀ j < k, ∀ y ∈ declaredOut ops j, y.name ≠ name

/-! ## One more operation -/

section Concat
variable (ops : List Op) (op : Op)

@[simp] theorem after_concat : after (ops ++ [op]) = op.apply (after ops) := by
  simp [after]

@[simp] theorem depth_concat : depth (ops ++ [op]) = op.depth (depth ops) := by
  simp [depth]

theorem opened?_concat : opened? (ops ++ [op]) = (opened? ops).bind (op.opened? ·) := by
  simp [opened?, List.foldlM_append]

theorem createdAt?_concat {i : Nat} (h : i < ops.length) : createdAt? (ops ++ [op]) i = createdAt? ops i := by
  simp [createdAt?, List.getElem?_append_left h, List.take_append_of_le_length (Nat.le_of_lt h)]

theorem declarations_concat (later : List Op → Bool) :
    declarations later (ops ++ [op]) = declarations (fun rest => later (rest ++ [op])) ops ++
      if later [] then (op.created? (after ops)).toList else [] := by
  unfold declarations
  rw [List.length_append, List.length_singleton, List.range_succ, List.filterMap_append]
  congr 1
  · refine List.filterMap_congr fun i hi => ?_
    have hi := List.mem_range.1 hi
    rw [createdAt?_concat ops op hi, List.drop_append_of_le_length (by omega)]
  · have last : createdAt? (ops ++ [op]) ops.length = op.created? (after ops) := by simp [createdAt?]
    have rest : (ops ++ [op]).drop (ops.length + 1) = [] := by simp
    simp only [List.filterMap_cons, List.filterMap_nil, last, rest]
    cases later [] <;> cases op.created? (after ops) <;> rfl

theorem created_concat : created (ops ++ [op]) = created ops ++ (op.created? (after ops)).toList := by
  simp [created, declarations_concat]

/-- What was `j` frames out is now `k` frames out. -/
theorem declaredOut_concat {j k : Nat} (h : ∀ n, op.opened? n = some k ↔ n = j) :
    declaredOut (ops ++ [op]) k =
      declaredOut ops j ++ if k = 0 then (op.created? (after ops)).toList else [] := by
  unfold declaredOut
  rw [declarations_concat]
  congr 1
  · congr 1
    funext rest
    rw [opened?_concat]
    cases opened? rest <;> simp [h]
  · simp [opened?, eq_comm]

theorem declaredOut_pop (k : Nat) : declaredOut (ops ++ [.pop]) k = declaredOut ops (k + 1) := by
  rw [declaredOut_concat ops .pop (j := k + 1)]
  · simp [Op.created?]
  · intro n
    simp only [Op.opened?]
    split <;> simp <;> omega

theorem declaredOut_push_succ (k : Nat) : declaredOut (ops ++ [.push]) (k + 1) = declaredOut ops k := by
  rw [declaredOut_concat ops .push (j := k)]
  · simp
  · simp [Op.opened?]

theorem declaredOut_push_zero : declaredOut (ops ++ [.push]) 0 = [] := by
  unfold declaredOut
  rw [declarations_concat]
  simp [opened?_concat, Op.opened?, Op.created?, declarations, Option.bind_eq_some_iff]

/-- The other operations open and close no frame that is looked back at. -/
theorem declaredOut_same (hop : ∀ n, op.opened? n = some n) (k : Nat) :
    declaredOut (ops ++ [op]) k =
      declaredOut ops k ++ if k = 0 then (op.created? (after ops)).toList else [] :=
  declaredOut_concat ops op fun n => by simp [hop]

end Concat

/-! ## The frames of a scope -/

theorem bind_of_resolved {scope : Scope} {name : String} {x : Local} (h : scope.resolve? name = some x) :
    scope.bind name = (x, false, scope) := by
  simp [bind, h]

theorem bind_of_unresolved {scope : Scope} {name : String} (h : scope.resolve? name = none) :
    scope.bind name = ((scope.declare name).1, true, (scope.declare name).2) := by
  simp [bind, h]

/-- Further out than the outermost frame there is nothing. -/
theorem declaredOut_of_depth_le (ops : List Op) {k : Nat} (h : depth ops ≤ k) : declaredOut ops k = [] := by
  induction ops using List.reverseRecOn generalizing k with
  | nil => rfl
  | append_singleton ops op ih =>
    rw [depth_concat] at h
    cases op with
    | push =>
      obtain ⟨j, rfl⟩ : ∃ j, k = j + 1 := ⟨k - 1, by simp only [Op.depth] at h; omega⟩
      rw [declaredOut_push_succ]
      exact ih (by simpa [Op.depth] using h)
    | pop =>
      rw [declaredOut_pop]
      exact ih (by simp only [Op.depth] at h; omega)
    | declare name | bind name =>
      simp only [Op.depth] at h
      rw [declaredOut_same _ _ (fun _ => rfl), ih (by omega), if_neg (by omega), List.append_nil]
    | resolve name =>
      rw [declaredOut_same _ _ (fun _ => rfl), ih h]
      simp [Op.created?]

/-- The declarations of the open frames, innermost first, each newest first. -/
def framesOf (ops : List Op) : List (List Local) := (List.range (depth ops)).map fun k => (declaredOut ops k).reverse

theorem framesOf_declared {ops : List Op} {op : Op} {x : Local} (hop : ∀ n, op.opened? n = some n)
    (hd : op.depth (depth ops) = max (depth ops) 1) (hx : op.created? (after ops) = some x) :
    framesOf (ops ++ [op]) = match framesOf ops with
      | [] => [[x]]
      | frame :: outer => (x :: frame) :: outer := by
  unfold framesOf
  simp only [depth_concat, hd, declaredOut_same _ _ hop, hx]
  cases hn : depth ops with
  | zero => simp [declaredOut_of_depth_le ops (Nat.le_of_eq hn)]
  | succ d => simp [List.range_succ_eq_map]

theorem framesOf_unchanged {ops : List Op} {op : Op} (hop : ∀ n, op.opened? n = some n)
    (hd : op.depth (depth ops) = depth ops) (hx : op.created? (after ops) = none) :
    framesOf (ops ++ [op]) = framesOf ops := by
  unfold framesOf
  simp [hd, declaredOut_same _ _ hop, hx]

theorem declare_frames_match (scope : Scope) (name : String) :
    (scope.declare name).2.frames = match scope.frames with
      | [] => [[⟨scope.count, name⟩]]
      | frame :: outer => (⟨scope.count, name⟩ :: frame) :: outer := by
  unfold declare
  split <;> simp_all

theorem pop_frames (scope : Scope) : scope.pop.2.frames = scope.frames.tail := by
  unfold pop
  split <;> simp_all

theorem after_frames (ops : List Op) : (after ops).frames = framesOf ops := by
  induction ops using List.reverseRecOn with
  | nil => rfl
  | append_singleton ops op ih =>
    rw [after_concat]
    cases op with
    | push => simp [Op.apply, Scope.push, ih, framesOf, Op.depth, List.range_succ_eq_map, declaredOut_push_zero,
        declaredOut_push_succ]
    | pop =>
      simp only [Op.apply, pop_frames, ih, framesOf, depth_concat, Op.depth, declaredOut_pop]
      cases depth ops <;> simp [List.range_succ_eq_map]
    | declare name =>
      have hx : (Op.declare name).created? (after ops) = some ⟨(after ops).count, name⟩ := by simp [Op.created?]
      rw [framesOf_declared (fun _ => rfl) rfl hx, Op.apply, declare_frames_match, ih]
    | bind name =>
      cases hr : (after ops).resolve? name with
      | none =>
        have hx : (Op.bind name).created? (after ops) = some ⟨(after ops).count, name⟩ := by
          simp [Op.created?, bind_of_unresolved hr]
        rw [framesOf_declared (fun _ => rfl) rfl hx, Op.apply, bind_of_unresolved hr, declare_frames_match, ih]
      | some x =>
        -- a name that is found is found in an open frame
        have hd : 0 < depth ops := by
          by_contra hd
          simp [resolve?, ih, framesOf, Nat.eq_zero_of_not_pos hd] at hr
        have hx : (Op.bind name).created? (after ops) = none := by simp [Op.created?, bind_of_resolved hr]
        rw [framesOf_unchanged (fun _ => rfl) (by simp only [Op.depth]; omega) hx, Op.apply, bind_of_resolved hr, ih]
    | resolve name => rw [framesOf_unchanged (fun _ => rfl) rfl rfl, Op.apply, ih]

/-! ## What a scope answers -/

section Answers
variable (ops : List Op)

/-- Slots are handed out one after the other. -/
theorem created_slots : (created ops).map Local.slot = List.range (after ops).count := by
  induction ops using List.reverseRecOn with
  | nil => rfl
  | append_singleton ops op ih =>
    rw [created_concat, List.map_append, ih, after_concat]
    cases op with
    | push | pop | resolve name => simp [Op.created?, Op.apply]
    | declare name => simp [Op.created?, Op.apply, List.range_succ]
    | bind name =>
      cases hr : (after ops).resolve? name with
      | none => simp [Op.created?, Op.apply, bind_of_unresolved hr, List.range_succ]
      | some x => simp [Op.created?, Op.apply, bind_of_resolved hr]

theorem find?_reverse_eq_some {l : List Local} {name : String} {x : Local} :
    l.reverse.find? (·.name == name) = some x ↔
      ∃ older newer, l = older ++ x :: newer ∧ x.name = name ∧ ∀ y ∈ newer, y.name ≠ name := by
  rw [List.find?_eq_some_iff_append]
  constructor
  · rintro ⟨hx, newer, older, hl, hn⟩
    refine ⟨older.reverse, newer.reverse, ?_, by simpa using hx, by simpa using hn⟩
    rw [← List.reverse_reverse l, hl]
    simp
  · rintro ⟨older, newer, rfl, hx, hn⟩
    exact ⟨by simpa using hx, newer.reverse, older.reverse, by simp, by simpa using hn⟩

theorem findSome?_range_eq_some {α : Type} {f : Nat → Option α} {d : Nat} {a : α} :
    (List.range d).findSome? f = some a ↔ ∃ k < d, f k = some a ∧ ∀ j < k, f j = none := by
  induction d with
  | zero => simp
  | succ d ih =>
    simp only [List.range_succ, List.findSome?_append, Option.or_eq_some_iff, ih, List.findSome?_eq_none_iff,
      List.mem_range, List.findSome?_singleton]
    grind

theorem resolve?_eq_some_iff {name : String} {x : Local} :
    (after ops).resolve? name = some x ↔ Newest ops name x := by
  unfold resolve?
  rw [after_frames, framesOf, List.findSome?_map, findSome?_range_eq_some]
  simp only [Function.comp_apply, find?_reverse_eq_some, List.find?_eq_none, List.mem_reverse, beq_iff_eq]
  constructor
  · rintro ⟨k, -, ⟨older, newer, hk, hx, hn⟩, hj⟩
    exact ⟨k, older, newer, hk, hx, hn, hj⟩
  · rintro ⟨k, older, newer, hk, hx, hn, hj⟩
    refine ⟨k, ?_, ⟨older, newer, hk, hx, hn⟩, hj⟩
    by_contra hd
    simp [declaredOut_of_depth_le ops (Nat.not_lt.1 hd)] at hk

theorem resolve?_eq_none_iff {name : String} :
    (after ops).resolve? name = none ↔ ∀ k, ∀ y ∈ declaredOut ops k, y.name ≠ name := by
  unfold resolve?
  rw [after_frames, framesOf, List.findSome?_map, List.findSome?_eq_none_iff]
  simp only [Function.comp_apply, List.find?_eq_none, List.mem_reverse, beq_iff_eq, List.mem_range]
  constructor
  · intro h k y hy
    refine h k ?_ y hy
    by_contra hd
    simp [declaredOut_of_depth_le ops (Nat.not_lt.1 hd)] at hy
  · exact fun h k _ => h k

theorem bind_creates_iff (scope : Scope) (name : String) :
    (scope.bind name).2.1 = true ↔ scope.resolve? name = none := by
  cases h : scope.resolve? name with
  | none => simp [bind_of_unresolved h]
  | some x => simp [bind_of_resolved h]

theorem pop_slots : (after ops).pop.1 = (declaredOut ops 0).map Local.slot := by
  unfold pop
  rw [after_frames, framesOf]
  cases h : depth ops with
  | zero => simp [declaredOut_of_depth_le ops (Nat.le_of_eq h)]
  | succ d => simp [List.range_succ_eq_map]

theorem pop_of_depth_zero (h : depth ops = 0) : (after ops).pop = ([], after ops) := by
  unfold pop
  simp [after_frames, framesOf, h]

/-- What is done in frames opened since leaves those that were open before at the bottom of the stack. -/
theorem frames_within {inner : List Op} {k : Nat} (h : opened? inner = some k) :
    ∃ newer, newer.length = k + 1 ∧
      (after (ops ++ .push :: inner)).frames = newer ++ (after ops).frames := by
  induction inner using List.reverseRecOn generalizing k with
  | nil =>
    cases h
    exact ⟨[[]], rfl, by simp [Op.apply, Scope.push]⟩
  | append_singleton inner op ih =>
    rw [opened?_concat] at h
    obtain ⟨j, hj, hop⟩ := Option.bind_eq_some_iff.1 h
    obtain ⟨newer, hl, hf⟩ := ih hj
    rw [show ops ++ .push :: (inner ++ [op]) = (ops ++ .push :: inner) ++ [op] by simp, after_concat]
    obtain ⟨frame, newer, rfl⟩ := List.exists_cons_of_length_eq_add_one hl
    have hd (name : String) := declare_frames name hf
    cases op with
    | push =>
      cases hop
      exact ⟨[] :: frame :: newer, by simpa using hl, by simp [Op.apply, Scope.push, hf]⟩
    | pop =>
      simp only [Op.opened?] at hop
      split at hop
      · cases hop
      · refine ⟨newer, ?_, by simp [Op.apply, pop_frames, hf]⟩
        simp only [Option.some.injEq, List.length_cons] at hop hl
        omega
    | declare name =>
      cases hop
      exact ⟨_ :: newer, by simpa using hl, by simpa [Op.apply] using hd name⟩
    | bind name =>
      cases hop
      cases hr : (after (ops ++ .push :: inner)).resolve? name with
      | none => exact ⟨_ :: newer, by simpa using hl, by simpa [Op.apply, bind_of_unresolved hr] using hd name⟩
      | some x => exact ⟨frame :: newer, hl, by simp [Op.apply, bind_of_resolved hr, hf]⟩
    | resolve name =>
      cases hop
      exact ⟨frame :: newer, hl, hf⟩

theorem after_pops_frames (n : Nat) :
    (after (ops ++ List.replicate n .pop)).frames = (after ops).frames.drop n := by
  induction n with
  | zero => simp
  | succ n ih =>
    rw [List.replicate_succ', ← List.append_assoc, after_concat, Op.apply, pop_frames, ih, List.tail_drop]

theorem count_le_apply (scope : Scope) (op : Op) : scope.count ≤ (op.apply scope).count := by
  cases op with
  | push | pop | resolve name => simp [Op.apply]
  | declare name => simp [Op.apply]
  | bind name =>
    cases hr : scope.resolve? name with
    | none => simp [Op.apply, bind_of_unresolved hr]
    | some x => simp [Op.apply, bind_of_resolved hr]

theorem count_le_after (more : List Op) : (after ops).count ≤ (after (ops ++ more)).count := by
  induction more using List.reverseRecOn with
  | nil => simp
  | append_singleton more op ih =>
    rw [← List.append_assoc, after_concat]
    exact Nat.le_trans ih (count_le_apply _ op)

/-- Closing all that was opened since gives back the frames from before. -/
theorem after_closed_frames {inner : List Op} {k : Nat} (h : opened? inner = some k) :
    (after (ops ++ .push :: inner ++ List.replicate (k + 1) .pop)).frames = (after ops).frames := by
  obtain ⟨newer, hl, hf⟩ := frames_within ops h
  rw [after_pops_frames, hf, ← hl, List.drop_left]

end Answers

/--
A scope is a stack of scopes, as its history tells. Declarations, those of names that were not visible when they
were bound among them, are given the slots 0, 1, 2, ... in order, as many as are counted. A name stands for its
newest declaration in the innermost open frame that has one, and for none if no open frame has one; binding it
makes a declaration just in that case. Closing a frame gives the slots that it declared, in order, and where no
frame is open nothing happens. What is done in frames opened since does not change what names stand for once these
are closed.
-/
theorem answers_of_history (ops : List Op) :
    (created ops).map Local.slot = List.range (after ops).count ∧
    (∀ name, (∀ x, (after ops).resolve? name = some x ↔ Newest ops name x) ∧
      ((after ops).resolve? name = none ↔ ∀ k, ∀ y ∈ declaredOut ops k, y.name ≠ name)) ∧
    (∀ name, (((after ops).bind name).2.1 = true ↔ (after ops).resolve? name = none) ∧
      ∀ x, (after ops).resolve? name = some x → (after ops).bind name = (x, false, after ops)) ∧
    (after ops).pop.1 = (declaredOut ops 0).map Local.slot ∧
    (depth ops = 0 → (after ops).pop = ([], after ops)) ∧
    ∀ inner k, opened? inner = some k →
      (∀ name, (after (ops ++ .push :: inner ++ List.replicate (k + 1) .pop)).resolve? name =
        (after ops).resolve? name) ∧
      (after ops).count ≤ (after (ops ++ .push :: inner ++ List.replicate (k + 1) .pop)).count := by
  refine ⟨created_slots ops, fun name => ⟨fun x => resolve?_eq_some_iff ops, resolve?_eq_none_iff ops⟩,
    fun name => ⟨bind_creates_iff _ name, fun x => bind_of_resolved⟩, pop_slots ops, pop_of_depth_zero ops, ?_⟩
  intro inner k h
  constructor
  · intro name
    unfold resolve?
    rw [after_closed_frames ops h]
  · rw [List.append_assoc]
    exact count_le_after ops _

/-- Shadowing, a second declaration in one frame, a frame opened by a declaration, and one pop too many. -/
def shadowing : List Op :=
  [.pop, .declare "x", .push, .bind "x", .declare "y", .declare "x", .declare "x", .push, .bind "z", .pop]

/-- Operations that open a frame and declare in it and below it. -/
def redeclaring : List Op := [.bind "y", .declare "x", .push, .declare "y"]

theorem answers_of_history_shadowing :
    created shadowing = [⟨0, "x"⟩, ⟨1, "y"⟩, ⟨2, "x"⟩, ⟨3, "x"⟩, ⟨4, "z"⟩] ∧ depth shadowing = 2 ∧
      declaredOut shadowing 0 = [⟨1, "y"⟩, ⟨2, "x"⟩, ⟨3, "x"⟩] ∧ declaredOut shadowing 1 = [⟨0, "x"⟩] ∧
      opened? redeclaring = some 1 ∧
      (∀ name, (after (shadowing ++ .push :: redeclaring ++ List.replicate 2 .pop)).resolve? name =
        (after shadowing).resolve? name) ∧
      (after shadowing).count ≤ (after (shadowing ++ .push :: redeclaring ++ List.replicate 2 .pop)).count ∧
      depth [.declare "x", .pop] = 0 ∧ (after [.declare "x", .pop]).pop = ([], after [.declare "x", .pop]) := by
  have restored := (answers_of_history shadowing).2.2.2.2.2 redeclaring 1 rfl
  have emptied := (answers_of_history [.declare "x", .pop]).2.2.2.2.1 rfl
  exact ⟨rfl, rfl, rfl, rfl, rfl, restored.1, restored.2, rfl, emptied⟩

end Stencil.Scope
