/-!
# Places

Where a template keeps data: local slots, the model, and members of either.
-/

namespace Stencil

/-- A local variable. The slot is what counts; the name is for messages and listings. -/
structure Local where
  slot : Nat
  name : String
deriving DecidableEq

/-- What a member assignment starts from. -/
inductive Root where
  | variable (x : Local)
  | model (name : String)
deriving DecidableEq

/-- The target of a member assignment: a root and the names that lead on from it. -/
structure Place where
  root : Root
  path : List String
deriving DecidableEq

def Root.text : Root → String
  | .variable x => x.name
  | .model name => "$" ++ name

def Place.text (place : Place) : String := ".".intercalate (place.root.text :: place.path)

end Stencil
