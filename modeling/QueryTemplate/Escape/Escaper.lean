import QueryTemplate.Error
import QueryTemplate.Escape.Builtin

/-!
# Escapers

An escaper turns string data into string literals. Besides the built-in ones there are escapers
that ask a database connection, which may answer bytes, and escapers of the caller's own.
-/

namespace QueryTemplate

/-- What an escape function of a connection answers: text, or the bytes of a text in UTF-8. -/
inductive Reply where
  | text (t : Text)
  | bytes (b : ByteArray)

namespace Reply

def decode : Reply → Except BuildError Text
  | text t => .ok t
  | bytes b =>
    match String.fromUTF8? b with
    | some s => .ok s.toList
    | none => .error .undecodableReply

end Reply

structure Connection where
  typeName : String
  escapeString : Option (Text → Reply)

inductive Escaper where
  | builtin (b : Builtin)
  | connected (dialect : String) (escapeString : Text → Reply)
  /-- An escaper of the caller's own, with quotes of its own. -/
  | custom (dialect : String) (escape quote : Text → Text)

namespace Escaper

def dialect : Escaper → String
  | builtin b => b.dialect
  | connected dialect _ => dialect
  | custom dialect .. => dialect

/-- String data without anything that could end its literal; no quotes around it. -/
def escape : Escaper → Text → Except BuildError Text
  | builtin b, t => .ok (b.style.escape t)
  | connected _ escapeString, t => (escapeString t).decode
  | custom _ escape _, t => .ok (escape t)

def quote : Escaper → Text → Except BuildError Text
  | builtin b, t => .ok (b.style.quote t)
  | connected _ escapeString, t => (escapeString t).decode.map fun e => '\'' :: e ++ ['\'']
  | custom _ _ quote, t => .ok (quote t)

/-- The dialect of a connection that nobody names. -/
def unnamedDialect : String := "mysql"

def ofConnection (c : Connection) (dialect : String) : Except ConfigError Escaper :=
  match c.escapeString with
  | some f => .ok (.connected dialect f)
  | none => .error (.noEscapeFunction c.typeName)

end Escaper

end QueryTemplate
