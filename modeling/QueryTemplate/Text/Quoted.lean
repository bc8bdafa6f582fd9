import QueryTemplate.Text.Printable

/-!
# Quoted texts

The form in which messages show a text: between quotes, on one line, with all that is not
printable spelled out as an escape.
-/

namespace QueryTemplate.Text

/-- The quote that surrounds a shown text: a single one, unless the text holds a single quote and
no double one. -/
def quoteMark (t : Text) : Char := if t.contains '\'' && !t.contains '"' then '"' else '\''

def quotedChar (mark c : Char) : Text :=
  if c = mark ∨ c = '\\' then ['\\', c]
  else if c = '\n' then ['\\', 'n']
  else if c = '\r' then ['\\', 'r']
  else if c = '\t' then ['\\', 't']
  else if isPrintable c then [c]
  else if c.toNat ≤ 0xff then ['\\', 'x'] ++ hex 2 c.toNat
  else if c.toNat ≤ 0xffff then ['\\', 'u'] ++ hex 4 c.toNat
  else ['\\', 'U'] ++ hex 8 c.toNat

/-- A text between quotes, with escapes for what cannot be shown. -/
def quoted (t : Text) : Text := t.quoteMark :: t.flatMap (quotedChar t.quoteMark) ++ [t.quoteMark]

end QueryTemplate.Text
