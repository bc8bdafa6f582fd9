import QueryTemplate.Query.Context
import QueryTemplate.Template.Marker
import QueryTemplate.Value.Argument

/-!
# Rendering arguments

The text that an argument leaves in a query, which its marker decides: a literal of its own type,
an integer, a floating-point number, the literals or assignments of an array, or names between back
quotes. Names are not escaped. A skip leaves the skip marker.
-/

namespace QueryTemplate

namespace Text

def backQuoted (name : Text) : Text := '\x60' :: name ++ ['\x60']

end Text

namespace Context

variable (ctx : Context)

/-! ## Scalars -/

def floatText (x : Binary64) : Text := x.literalText ctx.settings.precision.digits

def scalarLiteral : Scalar → Except BuildError Text
  | .null => .ok "NULL".toList
  | .bool b => .ok (if b then ['1'] else ['0'])
  | .int n => integerText n
  | .float x => .ok (ctx.floatText x)
  | .text t => ctx.escaper.quote t

/-- A scalar as a name. What is absent or false has the empty name. -/
def name : Scalar → Except BuildError Text
  | .null => .ok []
  | .bool b => .ok (if b then ['1'] else [])
  | .int n => integerText n
  | .float x => .ok (ctx.floatText x)
  | .text t => .ok t

def identifier (s : Scalar) : Except BuildError Text := (ctx.name s).map Text.backQuoted

def assignment (entry : Text × Scalar) : Except BuildError Text :=
  (ctx.scalarLiteral entry.2).map fun literal =>
    Text.backQuoted entry.1 ++ [' ', '=', ' '] ++ literal

/-! ## Values -/

def literal : Value → Except BuildError Text
  | .datum (.scalar s) => ctx.scalarLiteral s
  | v => .error (.unsupported v.kind)

def array : Value → Except BuildError Text
  | .datum (.sequence items) => (items.mapM ctx.scalarLiteral).map Text.commaSeparated
  | .datum (.mapping entries) => (entries.mapM ctx.assignment).map Text.commaSeparated
  | v => .error (.template (.notAnArray Marker.array.text v.kind))

def identifiers : Value → Except BuildError Text
  | .datum (.scalar s) => ctx.identifier s
  | .datum (.sequence items) => (items.mapM ctx.identifier).map Text.commaSeparated
  | .datum (.mapping entries) =>
    (entries.mapM fun entry => ctx.identifier entry.2).map Text.commaSeparated
  | v => .error (.unsupported v.kind)

/-! ## Markers -/

/-- A datum as its marker asks for it. -/
def render (m : Marker) (d : Datum) : Except BuildError Text :=
  match m with
  | .generic => ctx.literal (.datum d)
  | .integer => d.toInt.bind integerText
  | .float => d.toBinary64.map ctx.floatText
  | .array => ctx.array (.datum d)
  | .identifier => ctx.identifiers (.datum d)

def renderArgument (m : Marker) (a : Argument) : Except BuildError Text :=
  match a.classify with
  | .ok .skip => .ok ctx.skipMarker
  | .ok (.datum d) => ctx.render m d
  | .error e => .error e

end Context

end QueryTemplate
