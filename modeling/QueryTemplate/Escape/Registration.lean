import QueryTemplate.Escape.Registry

/-!
# Registration

The calls that a registry takes. An escaper is registered directly, or by the decorator of a name,
which gives it back. A decorator may be kept and used again: it registers when it is applied, and
making one changes nothing.
-/

namespace QueryTemplate

/-- Registers the escapers that it is applied to under one name. -/
structure Decorator where
  name : String

namespace Decorator

def apply (d : Decorator) (e : Escaper) (r : Registry) : Escaper × Registry :=
  (e, r.register d.name e)

end Decorator

namespace Registry

inductive Call where
  | register (name : String) (e : Escaper)
  | decorate (d : Decorator) (e : Escaper)
  | create (name : String)
  | list

inductive Answer where
  | registered
  | decorated (e : Escaper)
  | created (e : Escaper)
  | refused (e : ConfigError)
  | dialects (names : List String)

def step (r : Registry) : Call → Answer × Registry
  | .register name e => (.registered, r.register name e)
  | .decorate d e =>
    let (e, r) := d.apply e r
    (.decorated e, r)
  | .create name =>
    match r.lookup name with
    | .ok e => (.created e, r)
    | .error e => (.refused e, r)
  | .list => (.dialects r.dialects, r)

def after (r : Registry) (calls : List Call) : Registry :=
  calls.foldl (fun r call => (r.step call).2) r

end Registry

end QueryTemplate
