import QueryTemplate.Template.Piece

/-!
# Fragments

A fragment is a pair of braces with no brace between them. A sequence splits from left to right
into fragments and single elements outside them; a brace that has no partner is such an element.
The split is the same for the text of a query and for the pieces of a template, so it is written
once, over any elements of which some are braces.
-/

namespace QueryTemplate

inductive Brace where
  | opening
  | closing
deriving DecidableEq

namespace Brace

def ofChar? (c : Char) : Option Brace :=
  if c = '{' then some opening else if c = '}' then some closing else none

def ofPiece? : Piece → Option Brace
  | .char c => ofChar? c
  | .marker _ => none

end Brace

/-- An element outside all fragments, or the inside of a fragment. -/
inductive Segment (α : Type) where
  | plain (a : α)
  | fragment (inner : List α)
deriving DecidableEq

namespace Segment

variable {α : Type}

/-- The elements up to the next brace, if that is a closing one, and the segments after it. -/
def inside? (brace : α → Option Brace) : List (Segment α) → Option (List α × List (Segment α))
  | plain a :: rest =>
    match brace a with
    | some .closing => some ([], rest)
    | some .opening => none
    | none => (inside? brace rest).map fun (inner, rest) => (a :: inner, rest)
  | _ => none

def push (brace : α → Option Brace) (a : α) (following : List (Segment α)) : List (Segment α) :=
  match brace a with
  | some .opening =>
    match inside? brace following with
    | some (inner, rest) => fragment inner :: rest
    | none => plain a :: following
  | _ => plain a :: following

/-- The fragments of a sequence and the elements outside them, in order. -/
def ofList (brace : α → Option Brace) (xs : List α) : List (Segment α) := xs.foldr (push brace) []

/-- Start, end and inside of each fragment, the first segment starting at `start`. -/
def spans (start : Nat) : List (Segment α) → List (Nat × Nat × List α)
  | [] => []
  | plain _ :: rest => spans (start + 1) rest
  | fragment inner :: rest =>
    let stop := start + inner.length + 2
    (start, stop, inner) :: spans stop rest

end Segment

end QueryTemplate
