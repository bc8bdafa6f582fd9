import QueryTemplate.Number.Nearest
import QueryTemplate.Text.Basic

/-!
# Binary floating-point numbers of 64 bits

A finite number is a sign and a rank: its place among the finite numbers of that sign, counted
from zero outwards. The ranks are the integers below `2047 * 2 ^ 52`, and they are the low 63 bits
of the interchange format. A rank `r` lies in the block of spacing `2 ^ scale r` units, where the
unit is the least positive number, `2 ^ -1074`.

Rounding a fraction to the nearest number, with ties to the even rank, is `nearestRank`: it picks
the spacing and rounds the quotient on it. A carry into the next block needs no case of its own,
because the next rank is the next number there too.
-/

namespace QueryTemplate

/-- The number of ranks, which is the rank that infinity would have. -/
def rankBound : Nat := 2047 * Nat.pow 2 52

def unitsPerOne : Nat := Nat.pow 2 1074

theorem unitsPerOne_pos : 0 < unitsPerOne := by
  unfold unitsPerOne
  generalize 1074 = j
  exact Nat.two_pow_pos j

/-- A binary floating-point number of 64 bits. All values that are not numbers are one. -/
inductive Binary64 where
  | nan
  | infinite (negative : Bool)
  | finite (negative : Bool) (rank : Fin rankBound)
deriving DecidableEq

namespace Binary64

/-! ## The value of a rank -/

/-- Binary logarithm of the spacing, in units, around a rank. -/
def scale (rank : Nat) : Nat := rank / Nat.pow 2 52 - 1

/-- The integer that a rank stands for on the grid of its own spacing. -/
def significand (rank : Nat) : Nat := rank - scale rank * Nat.pow 2 52

def units (rank : Nat) : Nat := significand rank * Nat.pow 2 (scale rank)

/-! ## Rounding -/

/-- The rank nearest to `num / den`, which may lie beyond all finite numbers. -/
def nearestRank (num den : Nat) : Nat :=
  let fine := num * unitsPerOne
  let scale := Nat.log2 (fine / den) - 52
  scale * Nat.pow 2 52 + nearest fine (den * Nat.pow 2 scale)

def ofRank (negative : Bool) (rank : Nat) : Binary64 :=
  if h : rank < rankBound then .finite negative ⟨rank, h⟩ else .infinite negative

/-- The number nearest to `± num / den`; a tie goes to the even rank, and what lies beyond the
last finite number by half a spacing or more is infinite. -/
def ofRatio (negative : Bool) (num den : Nat) : Binary64 := ofRank negative (nearestRank num den)

def ofInt (n : Int) : Binary64 := ofRatio (decide (n < 0)) n.natAbs 1

/-- The number nearest to `± digits * 10 ^ exponent`. Orders of magnitude far outside the range
are answered at once, so that a huge exponent costs nothing. -/
def ofDecimal (negative : Bool) (digits : Nat) (exponent : Int) : Binary64 :=
  let order := (Text.ofNat digits).length + exponent
  if digits = 0 ∨ order < -330 then ofRank negative 0
  else if 310 < order then .infinite negative
  else ofRatio negative (digits * Nat.pow 10 exponent.toNat) (Nat.pow 10 (-exponent).toNat)

/-! ## Integers -/

/-- The integer part, rounded toward zero; what is not finite has none and gives 0. -/
def truncate : Binary64 → Int
  | .finite negative rank =>
    let whole : Int := (units rank / unitsPerOne : Nat)
    if negative then -whole else whole
  | _ => 0

/-- The integer that a number is, if it is one. Both zeros are the integer 0. -/
def integer? (x : Binary64) : Option Int :=
  match x with
  | .finite _ rank => if units rank % unitsPerOne = 0 then some x.truncate else none
  | _ => none

def one : Binary64 := ofInt 1

def zero : Binary64 := ofRank false 0

/-! ## Interchange format -/

/-- Reads the interchange format: a sign bit, then the rank; patterns beyond that of infinity are
not numbers. -/
def ofBits (bits : BitVec 64) : Binary64 :=
  let rank := bits.toNat % Nat.pow 2 63
  if rank ≤ rankBound then ofRank bits.msb rank else .nan

def toBits : Binary64 → BitVec 64
  | .nan => BitVec.ofNat 64 (rankBound + Nat.pow 2 51)
  | .infinite negative => BitVec.ofNat 64 (rankBound + if negative then Nat.pow 2 63 else 0)
  | .finite negative rank => BitVec.ofNat 64 (rank + if negative then Nat.pow 2 63 else 0)

end Binary64

end QueryTemplate
