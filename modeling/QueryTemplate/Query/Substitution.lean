import QueryTemplate.Query.Cursor
import QueryTemplate.Query.Rendering
import QueryTemplate.Template.Piece

/-!
# Substitution

The first pass of a build: every marker of a template gives way to its argument, from left to
right. What an argument leaves is not searched for markers.
-/

namespace QueryTemplate.Context

variable (ctx : Context)

def fill : Piece → Scan Text
  | .char c => return [c]
  | .marker m => do
    let a ← Cursor.take m.text
    ofExcept (ctx.renderArgument m a)

/-- A template with its markers replaced. -/
def substitute (template : Text) : Scan Text := do
  return (← (Piece.ofText template).mapM ctx.fill).flatten

end QueryTemplate.Context
