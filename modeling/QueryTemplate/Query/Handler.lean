import QueryTemplate.Escape.Registry
import QueryTemplate.Query.Collapse
import QueryTemplate.Query.Substitution
import QueryTemplate.Settings.Reading

/-!
# Handlers

A handler is an escaper and settings, fixed when it is made; it builds queries from templates and
arguments. A build substitutes the arguments and then collapses the fragments, with a fresh skip
marker and a fresh cursor. A build that fails logs nothing.
-/

namespace QueryTemplate

/-- Builds queries with one escaper and one choice of settings. -/
structure Handler where
  escaper : Escaper
  settings : Settings

structure CompiledQuery where
  sql : Text
  dialect : String
  /-- The number of arguments that markers have used. -/
  used : Int
  /-- The number of arguments that were passed. -/
  supplied : Nat
deriving DecidableEq

namespace CompiledQuery

def unused (q : CompiledQuery) : Int := q.supplied - q.used

end CompiledQuery

structure Compilation where
  outcome : Except BuildError CompiledQuery
  log : List LogRecord

namespace Handler

/-- Builds a query; the nonce makes the skip marker. -/
def compile (h : Handler) (nonce : Nonce) (template : Text) (arguments : List Argument) :
    Compilation :=
  let ctx : Context := ⟨h.escaper, h.settings, nonce.skipMarker⟩
  match ctx.substitute template (.start arguments) with
  | .error e _ => ⟨.error e, []⟩
  | .ok text cursor =>
    let collapsed := ctx.collapse {} text
    let leftOver := if cursor.remaining = 0 then [] else [.unused cursor.remaining]
    ⟨.ok ⟨collapsed.text, h.escaper.dialect, cursor.position, arguments.length⟩,
      .substituted cursor.position :: collapsed.log ++ leftOver⟩

def build (h : Handler) (nonce : Nonce) (template : Text) (arguments : List Argument) :
    Except BuildError Text :=
  (h.compile nonce template arguments).outcome.map CompiledQuery.sql

end Handler

/-! ## Making handlers -/

inductive HandlerSource where
  /-- An escaper, or without one the escaper that is registered for the dialect of the settings. -/
  | escaper (source : Option EscaperSource)
  | connection (c : Connection)
  /-- A bound database of a dialect, which the settings take over. -/
  | bound (dialect : String)

namespace Settings

def ofOptional (entries : Option (List (Scalar × Argument))) : Except ConfigError Settings :=
  match entries with
  | some entries => ofEntries entries
  | none => .ok default

end Settings

namespace Handler

/-- Makes a handler. A given escaper is found before the settings are read, any other one after. -/
def make (r : Registry) (source : HandlerSource) (entries : Option (List (Scalar × Argument))) :
    Except ConfigError Handler :=
  match source with
  | .escaper (some source) => do
    let escaper ← source.resolve r
    let settings ← Settings.ofOptional entries
    return ⟨escaper, settings⟩
  | .escaper none => do
    let settings ← Settings.ofOptional entries
    return ⟨← r.lookup settings.dialect, settings⟩
  | .connection c => do
    let settings ← Settings.ofOptional entries
    return ⟨← Escaper.ofConnection c settings.dialect, settings⟩
  | .bound dialect => do
    let settings ← Settings.ofOptional entries
    let escaper ← r.lookup dialect
    return ⟨escaper, { settings with dialect := escaper.dialect }⟩

end Handler

namespace Context

/-- Makes a context; the settings are read before the escaper is found, and without an escaper it
is that of MySQL. -/
def make (r : Registry) (skipMarker : Text) (entries : Option (List (Scalar × Argument)))
    (source : Option EscaperSource) : Except ConfigError Context := do
  let settings ← Settings.ofOptional entries
  let escaper ← (source.getD (.given (.builtin .mysql))).resolve r
  return ⟨escaper, settings, skipMarker⟩

end Context

end QueryTemplate
