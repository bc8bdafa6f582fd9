import QueryTemplate.Text.Quoted

/-!
# The log of a build

What a build reports beside its result. Records hold counts and settings, and never arguments.
-/

namespace QueryTemplate

inductive LogRecord where
  /-- So many markers are replaced. -/
  | substituted (count : Int)
  /-- A skip stands outside all fragments and is rendered as a literal. -/
  | skipOutsideFragment (literal : Text)
  /-- So many fragments are kept and dropped. -/
  | fragments (kept dropped : Nat)
  /-- So many arguments are left over. -/
  | unused (count : Int)
deriving DecidableEq

/-- A record as a log shows it. -/
structure LogLine where
  level : String
  /-- The part of the build that reports. -/
  logger : String
  message : String
deriving DecidableEq

namespace LogRecord

def level : LogRecord → String
  | skipOutsideFragment _ => "WARNING"
  | _ => "DEBUG"

def logger : LogRecord → String
  | substituted _ => "sqlslot.compile.scanner"
  | skipOutsideFragment _ | fragments .. => "sqlslot.compile.collapser"
  | unused _ => "sqlslot.compile.builder"

def message : LogRecord → String
  | substituted count => s!"Substituted {count} placeholder(s)"
  | skipOutsideFragment literal =>
    "Skip value used outside a conditional fragment; rendering it as " ++
      String.ofList literal.quoted
  | fragments kept dropped => s!"Fragments kept: {kept}, dropped: {dropped}"
  | unused count => s!"{count} argument(s) not consumed by any marker"

def line (r : LogRecord) : LogLine := ⟨r.level, r.logger, r.message⟩

end LogRecord

end QueryTemplate
