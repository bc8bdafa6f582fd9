import QueryTemplate.Error
import QueryTemplate.Number.Decimal

/-!
# Scalars

The single values that a query can hold. Scalars also serve as keys of mappings: there, booleans
and floating-point numbers without a fraction count as the integers they equal, and the label of a
key is its text.
-/

namespace QueryTemplate

inductive Scalar where
  | null
  | bool (b : Bool)
  | int (n : Int)
  | float (x : Binary64)
  | text (t : Text)
deriving DecidableEq

/-- The decimal text of an integer, within the limit on digits. -/
def integerText (n : Int) : Except BuildError Text :=
  if (Text.ofNat n.natAbs).length ≤ digitLimit then .ok (Text.ofInt n)
  else .error .unwritableInteger

namespace Scalar

/-- The integer that a scalar equals, if there is one. A text equals none. -/
def integer? : Scalar → Option Int
  | null => none
  | bool b => some b.toNat
  | int n => some n
  | float x => x.integer?
  | text _ => none

def label : Scalar → Except BuildError Text
  | null => .ok "None".toList
  | bool b => .ok (if b then "True".toList else "False".toList)
  | int n => integerText n
  | float x => .ok x.labelText
  | text t => .ok t

end Scalar

end QueryTemplate
