/-!
# Classes of characters

A class is a list of ranges of code points. `blank` is the white space of the Unicode standard.
-/

namespace Stencil

/-- Ranges of code points in increasing order, both ends included. -/
abbrev CharClass := List (Nat × Nat)

def CharClass.has : CharClass → Char → Bool
  | [], _ => false
  | (first, last) :: rest, c => first ≤ c.toNat && (c.toNat ≤ last || has rest c)

/-- White space. -/
def blank : CharClass := [
  (0x9, 0xd), (0x20, 0x20), (0x85, 0x85), (0xa0, 0xa0), (0x1680, 0x1680), (0x2000, 0x200a),
  (0x2028, 0x2029), (0x202f, 0x202f), (0x205f, 0x205f), (0x3000, 0x3000)
]

namespace Text

def isBlank (c : Char) : Bool := blank.has c

/-- Without the white space at both ends. -/
def trim (cs : List Char) : List Char :=
  ((cs.dropWhile isBlank).reverse.dropWhile isBlank).reverse

end Text

end Stencil
