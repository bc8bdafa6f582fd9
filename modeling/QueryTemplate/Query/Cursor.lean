import QueryTemplate.Value.Argument

/-!
# Cursors

A cursor hands out the arguments of a template one after the other. Its position is the number of
those that are used; a position below zero counts from the end. Taking an argument moves the
cursor, whatever becomes of the argument later, so an action over a cursor keeps the cursor also
when it fails.
-/

namespace QueryTemplate

structure Cursor where
  arguments : List Argument
  position : Int

/-- An action that uses arguments, and may fail after it has used some. -/
abbrev Scan := EStateM BuildError Cursor

namespace Cursor

def start (arguments : List Argument) : Cursor := ⟨arguments, 0⟩

def remaining (c : Cursor) : Int := c.arguments.length - c.position

def current? (c : Cursor) : Option Argument :=
  if 0 ≤ c.position then c.arguments[c.position.toNat]?
  else if 0 ≤ c.arguments.length + c.position then
    c.arguments[(c.arguments.length + c.position).toNat]?
  else none

def take (marker : Text) : Scan Argument := fun c =>
  if c.arguments.length ≤ c.position then
    .error (.template (.missingArgument c.position marker c.arguments.length)) c
  else
    match c.current? with
    | some a => .ok a { c with position := c.position + 1 }
    | none => .error .noSuchArgument c

/-- The next argument, classified. One that cannot be classified is used all the same. -/
def takeValue (marker : Text) : Scan Value := do
  ofExcept (← take marker).classify

end Cursor

end QueryTemplate
