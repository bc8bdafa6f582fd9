import QueryTemplate.Escape.Escaper
import QueryTemplate.Table

/-!
# The registry of dialects

The escapers by the name of their dialect. The last registration under a name wins. Names are
listed in the order of their code points.
-/

namespace QueryTemplate

structure Registry where
  escapers : Table String Escaper

namespace Registry

/-- The registry before any registration by a caller. -/
def builtin : Registry :=
  ⟨[("mysql", .builtin .mysql), ("mariadb", .builtin .mysql), ("sqlite", .builtin .sqlite),
    ("postgresql", .builtin .postgresql), ("ansi", .builtin .standard)]⟩

def register (r : Registry) (name : String) (e : Escaper) : Registry := ⟨r.escapers.set name e⟩

def dialects (r : Registry) : List String := r.escapers.keys.mergeSort fun a b => decide (a ≤ b)

def lookup (r : Registry) (name : String) : Except ConfigError Escaper :=
  match r.escapers.get? name with
  | some e => .ok e
  | none => .error (.unknownDialect name r.dialects)

end Registry

inductive EscaperSource where
  | given (e : Escaper)
  | registered (name : String)
  | connection (c : Connection) (dialect : String)

namespace EscaperSource

def resolve (r : Registry) : EscaperSource → Except ConfigError Escaper
  | given e => .ok e
  | registered name => r.lookup name
  | connection c dialect => Escaper.ofConnection c dialect

end EscaperSource

end QueryTemplate
