import QueryTemplate.Text.Basic

/-!
# Settings

What a caller can choose about the queries: the dialect, the text that stands for a skip outside
all fragments, and the number of significant digits of floating-point literals.
-/

namespace QueryTemplate

/-- A number of significant digits that identifies no more than a floating-point number holds. -/
structure Precision where
  digits : Nat
  one_le : 1 ≤ digits
  le_seventeen : digits ≤ 17
deriving DecidableEq

namespace Precision

def ofInt? (n : Int) : Option Precision :=
  if h : 1 ≤ n.toNat ∧ n.toNat ≤ 17 then some ⟨n.toNat, h.1, h.2⟩ else none

end Precision

structure Settings where
  /-- The registered name of the escaper that is used when none is given. -/
  dialect : String := "mysql"
  /-- Stands for a skip outside all fragments. -/
  skipLiteral : Text := "SKIP_BLOCK".toList
  precision : Precision := ⟨14, by decide, by decide⟩
  skipLiteral_ne_nil : skipLiteral ≠ [] := by decide
deriving DecidableEq

end QueryTemplate
