import QueryTemplate.Query.Context
import QueryTemplate.Query.Log
import QueryTemplate.Template.Fragment
import QueryTemplate.Text.Occurrence

/-!
# Collapsing fragments

The second pass of a build: a fragment that holds the skip marker is dropped with its braces, any
other one loses only its braces. Where the skip marker is left after that, the skip literal of the
settings takes its place.
-/

namespace QueryTemplate

structure Tally where
  kept : Nat := 0
  dropped : Nat := 0
deriving DecidableEq

structure Collapsed where
  text : Text
  tally : Tally
  log : List LogRecord
deriving DecidableEq

namespace Segment

def isDropped (skipMarker : Text) : Segment Char → Bool
  | plain _ => false
  | fragment inner => Text.occursIn skipMarker inner

def isKept (skipMarker : Text) : Segment Char → Bool
  | plain _ => false
  | fragment inner => !Text.occursIn skipMarker inner

def collapsed (skipMarker : Text) : Segment Char → Text
  | plain c => [c]
  | fragment inner => if Text.occursIn skipMarker inner then [] else inner

end Segment

namespace Context

variable (ctx : Context)

def segments (t : Text) : List (Segment Char) := Segment.ofList Brace.ofChar? t

/-- A text with its fragments collapsed, before the skip literal is put in. -/
def collapseFragments (t : Text) : Text := (segments t).flatMap (Segment.collapsed ctx.skipMarker)

def tallyAfter (tally : Tally) (t : Text) : Tally :=
  ⟨tally.kept + (segments t).countP (Segment.isKept ctx.skipMarker),
    tally.dropped + (segments t).countP (Segment.isDropped ctx.skipMarker)⟩

/-- A text with its fragments collapsed and the skip literal for every skip marker that is left.
The tally counts on from earlier texts. -/
def collapse (tally : Tally) (t : Text) : Collapsed :=
  let text := ctx.collapseFragments t
  let tally := ctx.tallyAfter tally t
  let literal := ctx.settings.skipLiteral
  let warning := if Text.occursIn ctx.skipMarker text then [.skipOutsideFragment literal] else []
  ⟨Text.replaceAll ctx.skipMarker literal text, tally,
    warning ++ [.fragments tally.kept tally.dropped]⟩

end Context

end QueryTemplate
