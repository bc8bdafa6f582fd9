import QueryTemplate.Number.Numeral
import QueryTemplate.Table
import QueryTemplate.Value.Scalar

/-!
# Values

What a marker can be given, after classification: the skip value, or a datum, which is a scalar, an
indexed array or an associative array of scalars. Every datum counts as a number: a text as the
numeral it starts with, an array as whether it has elements.
-/

namespace QueryTemplate

inductive Datum where
  | scalar (s : Scalar)
  | sequence (items : List Scalar)
  | mapping (entries : Table Text Scalar)
deriving DecidableEq

inductive Value where
  /-- The value that drops the fragment it is bound in. -/
  | skip
  | datum (d : Datum)
deriving DecidableEq

namespace Datum

def kind : Datum → String
  | scalar _ => "scalar"
  | sequence _ => "sequence"
  | mapping _ => "mapping"

/-- The number that a datum counts as. -/
def number : Datum → Except BuildError Number
  | scalar .null => .ok (.int 0)
  | scalar (.bool b) => .ok (.int b.toNat)
  | scalar (.int n) => .ok (.int n)
  | scalar (.float x) => .ok (.float x)
  | scalar (.text t) =>
    match Numeral.leading? t with
    | some numeral => numeral.number
    | none => .ok (.int 0)
  | sequence items => .ok (.int (!items.isEmpty).toNat)
  | mapping entries => .ok (.int (!entries.isEmpty).toNat)

def toInt (d : Datum) : Except BuildError Int := d.number.map Number.toInt

def toBinary64 (d : Datum) : Except BuildError Binary64 := d.number.bind Number.toBinary64

end Datum

namespace Value

def kind : Value → String
  | skip => "skip"
  | datum d => d.kind

end Value

end QueryTemplate
