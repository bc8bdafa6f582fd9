import QueryTemplate.Value.Basic

/-!
# Arguments

What callers pass, before classification: scalars, lists and tuples, maps with scalar keys, values
that are classified already, and things of foreign types. `Argument.classify` sorts them out. A map
whose keys are the integers from 0 up, in that order, is an indexed array; any other map with keys
is an associative one.
-/

namespace QueryTemplate

inductive Argument where
  | scalar (s : Scalar)
  | list (items : List Argument)
  | tuple (items : List Argument)
  | map (entries : List (Scalar × Argument))
  | value (v : Value)
  /-- Something of a type that no query can hold. -/
  | foreign (typeName : String)

namespace Argument

def asScalar : Argument → Except BuildError Scalar
  | scalar s => .ok s
  | list _ => .error (.unsupported "list")
  | tuple _ => .error (.unsupported "tuple")
  | map _ => .error (.unsupported "dict")
  | value v => .error (.unsupported v.kind)
  | foreign typeName => .error (.unsupported typeName)

def countsFrom (start : Nat) : List Scalar → Bool
  | [] => true
  | key :: rest => key.integer? == some (start : Int) && countsFrom (start + 1) rest

/-- Whether a map with these keys is an associative array rather than an indexed one. -/
def isAssociative (keys : List Scalar) : Bool := !countsFrom 0 keys

def labelled (entry : Scalar × Argument) : Except BuildError (Text × Scalar) := do
  let label ← entry.1.label
  let s ← entry.2.asScalar
  return (label, s)

/-- The value that an argument is. Elements are checked in order; keys with equal labels share one
entry, at the place of the first and with the scalar of the last. -/
def classify : Argument → Except BuildError Value
  | value v => .ok v
  | scalar s => .ok (.datum (.scalar s))
  | list items => return .datum (.sequence (← items.mapM asScalar))
  | tuple items => return .datum (.sequence (← items.mapM asScalar))
  | map entries =>
    if isAssociative (entries.map Prod.fst) then
      return .datum (.mapping (.ofEntries (← entries.mapM labelled)))
    else return .datum (.sequence (← entries.mapM fun entry => entry.2.asScalar))
  | foreign typeName => .error (.unsupported typeName)

end Argument

namespace Value

def scalar? (a : Argument) : Option Value :=
  a.asScalar.toOption.map fun s => .datum (.scalar s)

def sequence? (items : List Argument) : Option Value :=
  (items.mapM Argument.asScalar).toOption.map fun items => .datum (.sequence items)

/-- The associative array made of entries, if all their arguments are scalars. It stays one when it
is empty. -/
def mapping? (entries : List (Text × Argument)) : Option Value :=
  let scalars := entries.mapM fun entry => entry.2.asScalar.map (entry.1, ·)
  scalars.toOption.map fun entries => .datum (.mapping (.ofEntries entries))

end Value

end QueryTemplate
