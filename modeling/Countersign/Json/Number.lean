import Countersign.Json.Value
import Countersign.Text.Decimal

/-!
# Numbers as floating point

Which values a reader that holds numbers as 64-bit floats has room for, and which float it holds.
-/

set_option autoImplicit false

namespace Countersign.Json

def isFloat : Json → Bool
  | .integer n => n.natAbs < Decimal.floatBound
  | .decimal literal => Decimal.fitsFloat literal
  | _ => false

def unsignedFloat? : Json → Option Rat
  | .integer (.ofNat n) => some (Decimal.nearestFloat n)
  | .decimal literal => if literal.head? = some 0x2d then none else Decimal.float? literal
  | _ => none

end Countersign.Json
