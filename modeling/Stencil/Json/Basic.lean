import Stencil.Fields
import Stencil.Number.Binary64
/-!
# JSON values
-/

namespace Stencil

/--
A JSON value. A number written without fraction and exponent is an `integer` as long as it is a signed
or unsigned 64-bit one; every other number is `real`.
-/
inductive Json where
  | null
  | bool (b : Bool)
  | integer (n : Int)
  | real (x : Binary64)
  | string (s : String)
  | array (items : List Json)
  | object (fields : List (String × Json))
deriving Inhabited

end Stencil
