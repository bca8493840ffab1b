/-!
# Named fields in key order

The fields of an object are a list of pairs. `insert` puts a new name where the order of names wants
it, so that a list built by insertions is ordered by code point and holds each name once. What
`insert` does to the reading of names holds of every list.
-/

namespace Stencil

/-- Pairs of a name and what it names. -/
abbrev Fields (α : Type) := List (String × α)

namespace Fields

variable {α : Type}

def get? (name : String) : Fields α → Option α
  | [] => none
  | (key, a) :: rest => if name = key then some a else get? name rest

def insert (name : String) (a : α) : Fields α → Fields α
  | [] => [(name, a)]
  | (key, b) :: rest =>
    if name = key then (name, a) :: rest
    else if name < key then (name, a) :: (key, b) :: rest
    else (key, b) :: insert name a rest

@[simp] theorem get?_insert_self (name : String) (a : α) (fields : Fields α) :
    (insert name a fields).get? name = some a := by
  induction fields with
  | nil => simp [insert, get?]
  | cons field rest ih =>
    rw [insert]
    split
    · simp [get?]
    · split
      · simp [get?]
      · simp_all [get?]

theorem get?_insert_of_ne {name other : String} (h : other ≠ name) (a : α) (fields : Fields α) :
    (insert name a fields).get? other = fields.get? other := by
  induction fields with
  | nil => simp [insert, get?, h]
  | cons field rest ih =>
    rw [insert]
    split
    · simp_all [get?]
    · split
      · simp [get?, h]
      · simp [get?, ih]

end Fields

end Stencil
