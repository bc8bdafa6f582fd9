import QueryTemplate.Number.Binary64

/-!
# Decimal forms of floating-point numbers

A positive number is written from a decimal: digits without trailing zeros and the exponent of the
first of them. `significant` rounds to a given count of digits, `shortest` takes the fewest digits
that read back as the same number. A `FloatStyle` then says how a decimal is laid out.
-/

namespace QueryTemplate

/-- A positive decimal number `d.ddd * 10 ^ exponent`, given by its digits. -/
structure Decimal where
  digits : Text
  exponent : Int
deriving DecidableEq

namespace Decimal

/-- The largest `e` with `10 ^ e ≤ num / den`, for a positive fraction. -/
def leadingExponent (num den : Nat) : Int :=
  if den ≤ num then (Text.ofNat (num / den)).length - 1
  else -(Text.ofNat ((den - 1) / num)).length

def onGrid (places : Int) (num den : Nat) : Nat × Nat :=
  (num * Nat.pow 10 places.toNat, den * Nat.pow 10 (-places).toNat)

def trimmedDigits (n : Nat) : Text :=
  ((Text.ofNat n).reverse.dropWhile (· == '0')).reverse

def ofGrid (places : Int) (n : Nat) : Decimal :=
  ⟨trimmedDigits n, (Text.ofNat n).length - 1 - places⟩

/-- A positive fraction rounded to `precision` significant digits, a half to the even digit. -/
def significant (precision num den : Nat) : Decimal :=
  let places := precision - 1 - leadingExponent num den
  let (n, d) := onGrid places num den
  ofGrid places (nearest n d)

/-- The grid point nearest to a number among those with `precision` digits that read back as it,
if one of its two neighbours on that grid does. -/
def readsBack? (precision rank : Nat) : Option Decimal :=
  let num := Binary64.units rank
  let places := precision - 1 - leadingExponent num unitsPerOne
  let (n, d) := onGrid places num unitsPerOne
  let near := nearest n d
  let far := if near = n / d then near + 1 else n / d
  let reads (m : Nat) : Bool :=
    let (back, one) := onGrid (-places) m 1
    Binary64.nearestRank back one == rank
  if reads near then some (ofGrid places near)
  else if reads far then some (ofGrid places far)
  else none

/-- The fewest digits that read back as the number of a positive rank, and of those the nearest to
it. Seventeen digits always do. -/
def shortest (rank : Nat) : Decimal :=
  match (List.range 17).findSome? fun k => readsBack? (k + 1) rank with
  | some d => d
  | none => significant 17 (Binary64.units rank) unitsPerOne

end Decimal

/-! ## Layout -/

/-- How decimals become text: the leading exponents that are written without an exponent are those
from -4 up to but not including `positionalEnd`. -/
structure FloatStyle where
  positionalEnd : Int
  /-- The letter before an exponent. -/
  mark : Char
  /-- What follows an integer that is written without an exponent. -/
  integerTail : Text
  infinite : Text
  nan : Text

namespace FloatStyle

def exponentText (e : Int) : Text :=
  let digits := Text.ofNat e.natAbs
  (if e < 0 then '-' else '+') :: List.replicate (2 - digits.length) '0' ++ digits

/-- Digits around a decimal point, `whole` of them before it; the missing ones are zeros. -/
def positional (style : FloatStyle) (digits : Text) (whole : Nat) : Text :=
  let fraction := digits.drop whole
  digits.take whole ++ List.replicate (whole - digits.length) '0' ++
    if fraction.isEmpty then style.integerTail else '.' :: fraction

def decimalText (style : FloatStyle) (d : Decimal) : Text :=
  if -4 ≤ d.exponent ∧ d.exponent < style.positionalEnd then
    if d.exponent < 0 then
      ['0', '.'] ++ List.replicate (d.exponent.natAbs - 1) '0' ++ d.digits
    else style.positional d.digits (d.exponent.natAbs + 1)
  else
    d.digits.take 1 ++ (if d.digits.length ≤ 1 then [] else '.' :: d.digits.drop 1) ++
      style.mark :: exponentText d.exponent

def text (style : FloatStyle) (decimal : Nat → Decimal) : Binary64 → Text
  | .nan => style.nan
  | .infinite negative => if negative then '-' :: style.infinite else style.infinite
  | .finite negative rank =>
    let magnitude := style.decimalText (if rank.val = 0 then ⟨['0'], 0⟩ else decimal rank)
    if negative then '-' :: magnitude else magnitude

/-- Literals: as many digits as the settings ask for, capital letters, and an exponent as soon as
the digits do not reach the decimal point. -/
def literal (precision : Nat) : FloatStyle :=
  ⟨precision, 'E', [], ['I', 'N', 'F'], ['N', 'A', 'N']⟩

/-- Labels: as few digits as identify the number, small letters, and at least one digit after the
decimal point. -/
def label : FloatStyle := ⟨16, 'e', ['.', '0'], ['i', 'n', 'f'], ['n', 'a', 'n']⟩

end FloatStyle

namespace Binary64

def literalText (precision : Nat) : Binary64 → Text :=
  (FloatStyle.literal precision).text fun rank =>
    Decimal.significant precision (units rank) unitsPerOne

def labelText : Binary64 → Text := FloatStyle.label.text Decimal.shortest

end Binary64

end QueryTemplate
