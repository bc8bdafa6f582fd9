import QueryTemplate.Error

/-!
# Markers

A marker is a question mark with an optional type code. It stands for one argument and says how
that is rendered.
-/

namespace QueryTemplate

inductive Marker where
  /-- A literal of the argument's own type. -/
  | generic
  | integer
  | float
  /-- The elements of an array, or the assignments of an associative one. -/
  | array
  /-- Names between back quotes. -/
  | identifier
deriving DecidableEq

namespace Marker

def code : Marker → Text
  | generic => []
  | integer => ['d']
  | float => ['f']
  | array => ['a']
  | identifier => ['#']

def text (m : Marker) : Text := '?' :: m.code

def ofChar? : Char → Option Marker
  | 'd' => some integer
  | 'f' => some float
  | 'a' => some array
  | '#' => some identifier
  | _ => none

def ofCode : Text → Except BuildError Marker
  | [] => .ok generic
  | [c] => (ofChar? c).elim (.error (.unknownMarker [c])) .ok
  | code => .error (.unknownMarker code)

theorem code_of_ofChar? {c : Char} {m : Marker} (h : ofChar? c = some m) : m.code = [c] := by
  unfold ofChar? at h
  split at h <;> simp only [Option.some.injEq, reduceCtorEq] at h <;> subst h <;> rfl

end Marker

end QueryTemplate
