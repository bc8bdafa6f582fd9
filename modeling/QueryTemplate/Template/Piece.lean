import QueryTemplate.Template.Marker

/-!
# Pieces of a template

A template is a sequence of pieces: markers, and the characters between them. A question mark takes
the type code that follows it, if one does. `text_ofText` says that the pieces spell the template.
-/

namespace QueryTemplate

/-- A marker, or a character that stands for itself. -/
inductive Piece where
  | char (c : Char)
  | marker (m : Marker)
deriving DecidableEq

namespace Piece

def text : Piece → Text
  | char c => [c]
  | marker m => m.text

def isMarker : Piece → Bool
  | marker _ => true
  | char _ => false

/-- The type code at the start of some pieces, and the rest. -/
def typeCode? : List Piece → Option (Marker × List Piece)
  | char c :: rest => (Marker.ofChar? c).map (·, rest)
  | _ => none

def push (c : Char) (following : List Piece) : List Piece :=
  if c = '?' then
    match typeCode? following with
    | some (m, rest) => marker m :: rest
    | none => marker .generic :: following
  else char c :: following

def ofText (template : Text) : List Piece := template.foldr push []

/-- Start, end and marker of each marker in some pieces, the first of which starts at `start`. -/
def spans (start : Nat) : List Piece → List (Nat × Nat × Marker)
  | [] => []
  | char _ :: rest => spans (start + 1) rest
  | marker m :: rest =>
    let stop := start + m.text.length
    (start, stop, m) :: spans stop rest

theorem text_push (c : Char) (following : List Piece) :
    (push c following).flatMap text = c :: following.flatMap text := by
  unfold push
  split
  · rename_i hc
    subst hc
    split
    · rename_i m rest h
      match following, h with
      | char k :: tail, h =>
        obtain ⟨m', hm, hp⟩ := Option.map_eq_some_iff.1 h
        obtain ⟨rfl, rfl⟩ := Prod.mk.inj hp
        simp [text, Marker.text, Marker.code_of_ofChar? hm]
    · rfl
  · rfl

theorem text_ofText (template : Text) : (ofText template).flatMap text = template := by
  induction template with
  | nil => rfl
  | cons c rest ih =>
    rw [ofText, List.foldr_cons, text_push, ← ofText, ih]

end Piece

end QueryTemplate
