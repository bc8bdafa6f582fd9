import QueryTemplate.Settings.Basic
import QueryTemplate.Text.Blank
import QueryTemplate.Value.Argument

/-!
# Reading settings

Settings from a mapping. Fields that are absent keep their defaults. The first problem is blamed:
the fields come first, in their order, and then the unknown keys in the order of the mapping.
-/

namespace QueryTemplate

namespace Precision

/-- Digits of ASCII in groups with single underscores between them, without the underscores. -/
def ungroup? (t : Text) : Option Text :=
  let groups := t.splitOn '_'
  if groups.all fun g => !g.isEmpty && g.all Char.isDigit then some groups.flatten else none

/-- Whether what follows the whole part of a number is nothing, or a point and at least one zero,
and no other digit. -/
def isZeroFraction : Text → Bool
  | [] => true
  | _ :: zeros => !zeros.isEmpty && zeros.all (· = '0')

/-- A precision as text: between white space an integer, which may have a plus sign, leading zeros
(with underscores among them), grouped digits, and a fraction of zeros. -/
def ofText? (t : Text) : Option Precision :=
  let unsigned := match t.trim with
    | '+' :: rest => rest
    | trimmed => trimmed
  let number := if unsigned.head? = some '0' then unsigned.dropWhile fun c => c = '0' || c = '_'
    else unsigned
  if isZeroFraction (number.dropWhile (· ≠ '.')) then
    (ungroup? (number.takeWhile (· ≠ '.'))).bind fun digits => ofInt? (Nat.ofDigitChars 10 digits 0)
  else none

/-- The precision that a setting gives: an integer, a boolean or a floating-point number that
equals one, or the text of an integer. -/
def ofArgument? : Argument → Option Precision
  | .scalar (.text t) => ofText? t
  | .scalar s => s.integer?.bind ofInt?
  | _ => none

end Precision

namespace Settings

def default : Settings := {}

def text? : Argument → Option Text
  | .scalar (.text t) => some t
  | _ => none

def nonemptyText? (a : Argument) : Option { t : Text // t ≠ [] } :=
  (text? a).bind fun t => if h : t ≠ [] then some ⟨t, h⟩ else none

/-- The names of the fields, in the order in which they are checked. -/
def fields : List String := ["dialect", "skip_literal", "float_precision"]

def key (field : String) : Scalar := .text field.toList

/-- A field as `read` accepts it, or its default where the mapping has no such key. -/
def field {α : Type} (entries : List (Scalar × Argument)) (name : String) (default : α)
    (read : Argument → Option α) : Except ConfigError α :=
  match Table.get? entries (key name) with
  | none => .ok default
  | some a =>
    match read a with
    | some value => .ok value
    | none => .error (.invalidSetting name)

def location : Scalar → String
  | .bool b => toString b.toNat
  | s =>
    match s.label with
    | .ok t => String.ofList t
    | .error _ => ""

def unknownKey? (entries : List (Scalar × Argument)) : Option Scalar :=
  (Table.keys entries).find? fun k => !(fields.map key).contains k

def ofEntries (entries : List (Scalar × Argument)) : Except ConfigError Settings := do
  let dialect ← field entries "dialect" default.dialect fun a => (text? a).map String.ofList
  let skipLiteral ← field entries "skip_literal"
    ⟨default.skipLiteral, default.skipLiteral_ne_nil⟩ nonemptyText?
  let precision ← field entries "float_precision" default.precision Precision.ofArgument?
  match unknownKey? entries with
  | some k => .error (.invalidSetting (location k))
  | none => return ⟨dialect, skipLiteral.1, precision, skipLiteral.2⟩

def ofArgument : Argument → Except ConfigError Settings
  | .map entries => ofEntries entries
  | _ => .error (.invalidSetting "")

end Settings

end QueryTemplate
