import QueryTemplate.Text.Basic

/-!
# Blanks

Two classes of characters that separate: white space in the sense of Unicode, and the slightly
larger class of blanks, which adds the four information separators of ASCII.
-/

namespace QueryTemplate

/-- White space in the sense of Unicode: the separators, and the controls that move the cursor. -/
def isWhiteSpace (c : Char) : Bool :=
  let n := c.toNat
  decide (0x9 ≤ n ∧ n ≤ 0xd) || decide (0x2000 ≤ n ∧ n ≤ 0x200a) ||
    [0x20, 0x85, 0xa0, 0x1680, 0x2028, 0x2029, 0x202f, 0x205f, 0x3000].contains n

/-- White space, or one of the separators of files, groups, records and units (0x1c to 0x1f). -/
def isBlank (c : Char) : Bool :=
  isWhiteSpace c || decide (0x1c ≤ c.toNat ∧ c.toNat ≤ 0x1f)

namespace Text

def trim (t : Text) : Text :=
  ((t.dropWhile isWhiteSpace).reverse.dropWhile isWhiteSpace).reverse

end Text

end QueryTemplate
