import QueryTemplate.Error
import QueryTemplate.Number.Binary64
import QueryTemplate.Text.Blank
import QueryTemplate.Text.Digit

/-!
# Numerals

The number that a text starts with. After blanks, a numeral is an optional sign, digits with an
optional fraction (or a fraction alone), and an optional exponent; digits of all scripts count. The
reader takes the longest numeral there is. A numeral without a fraction part and without an
exponent spells an integer, any other one a floating-point number.
-/

namespace QueryTemplate

inductive Sign where
  | plus
  | minus
deriving DecidableEq

namespace Sign

def char : Sign → Char
  | plus => '+'
  | minus => '-'

def text (sign : Option Sign) : Text := (sign.map char).toList

def read : Text → Option Sign × Text
  | '+' :: rest => (some plus, rest)
  | '-' :: rest => (some minus, rest)
  | t => (none, t)

def apply (sign : Option Sign) (n : Nat) : Int := if sign = some minus then -n else n

end Sign

structure Exponent where
  mark : Char
  sign : Option Sign
  digits : Text
deriving DecidableEq

namespace Exponent

def text (e : Exponent) : Text := e.mark :: Sign.text e.sign ++ e.digits

def value (e : Exponent) : Int := Sign.apply e.sign (digitsValue e.digits)

/-- The exponent at the start of a text, if a whole one stands there, and the rest. -/
def read : Text → Option Exponent × Text
  | [] => (none, [])
  | c :: rest =>
    let (sign, tail) := Sign.read rest
    let digits := tail.takeWhile isDecimalDigit
    if (c = 'e' ∨ c = 'E') ∧ digits ≠ [] then
      (some ⟨c, sign, digits⟩, tail.dropWhile isDecimalDigit)
    else (none, c :: rest)

end Exponent

structure Numeral where
  sign : Option Sign
  whole : Text
  fraction : Option Text
  exponent : Option Exponent
deriving DecidableEq

inductive Number where
  | int (n : Int)
  | float (x : Binary64)
deriving DecidableEq

namespace Numeral

def text (n : Numeral) : Text :=
  Sign.text n.sign ++ n.whole ++ (n.fraction.elim [] ('.' :: ·)) ++ n.exponent.elim [] Exponent.text

/-- Digits with an optional fraction, or a fraction alone, at the start of a text; and the rest. -/
def readDigits? (t : Text) : Option (Text × Option Text × Text) :=
  let whole := t.takeWhile isDecimalDigit
  match t.dropWhile isDecimalDigit with
  | '.' :: rest =>
    let fraction := rest.takeWhile isDecimalDigit
    if whole = [] ∧ fraction = [] then none
    else some (whole, some fraction, rest.dropWhile isDecimalDigit)
  | rest => if whole = [] then none else some (whole, none, rest)

/-- The longest numeral at the start of a text, and the rest. -/
def read? (t : Text) : Option (Numeral × Text) :=
  let (sign, body) := Sign.read t
  (readDigits? body).map fun (whole, fraction, tail) =>
    let (exponent, rest) := Exponent.read tail
    (⟨sign, whole, fraction, exponent⟩, rest)

/-- The numeral that a text starts with, after its leading blanks. -/
def leading? (t : Text) : Option Numeral := (read? (t.dropWhile isBlank)).map (·.1)

def isInteger (n : Numeral) : Bool := n.fraction.isNone && n.exponent.isNone

def digits (n : Numeral) : Text := n.whole ++ n.fraction.getD []

/-- The power of ten that the last of the digits counts. -/
def power (n : Numeral) : Int :=
  n.exponent.elim 0 Exponent.value - ((n.fraction.getD []).length : Int)

/-- The number that a numeral spells. Integers are exact, and limited in length; other numbers are
rounded once. -/
def number (n : Numeral) : Except BuildError Number :=
  if n.isInteger then
    if n.whole.length ≤ digitLimit then .ok (.int (Sign.apply n.sign (digitsValue n.whole)))
    else .error (.unreadableInteger n.whole.length)
  else .ok (.float (.ofDecimal (n.sign = some .minus) (digitsValue n.digits) n.power))

end Numeral

namespace Number

def toInt : Number → Int
  | int n => n
  | float x => x.truncate

/-- The nearest floating-point number; an integer beyond all of them has none. -/
def toBinary64 : Number → Except BuildError Binary64
  | int n =>
    match Binary64.ofInt n with
    | .infinite _ => .error .integerTooLarge
    | x => .ok x
  | float x => .ok x

end Number

end QueryTemplate
