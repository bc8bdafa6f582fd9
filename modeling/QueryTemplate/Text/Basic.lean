/-!
# Texts

A text is a list of characters. Query templates, string data and finished queries are texts: every
pass of the library is a recursion over one. Names that are only looked up and messages that are
only shown stay strings.
-/

namespace QueryTemplate

/-- A sequence of Unicode code points. -/
abbrev Text := List Char

namespace Text

def ofNat (n : Nat) : Text := Nat.toDigits 10 n

/-- A natural number in base 16, padded on the left with zeros to at least `width` digits. -/
def hex (width n : Nat) : Text :=
  let digits := Nat.toDigits 16 n
  List.replicate (width - digits.length) '0' ++ digits

def ofInt (n : Int) : Text := if n < 0 then '-' :: ofNat n.natAbs else ofNat n.natAbs

theorem isDigit_of_mem_ofNat {n : Nat} {c : Char} (hc : c ∈ ofNat n) : c.isDigit :=
  Nat.isDigit_of_mem_toDigits (by decide) (by decide) hc

theorem ofDigitChars_ofNat (n : Nat) : Nat.ofDigitChars 10 (ofNat n) 0 = n :=
  Nat.ofDigitChars_toDigits (by decide) (by decide)

def commaSeparated (items : List Text) : Text := [',', ' '].intercalate items

theorem commaSeparated_singleton (t : Text) : commaSeparated [t] = t := by
  simp [commaSeparated]

theorem commaSeparated_cons_cons (t t' : Text) (items : List Text) :
    commaSeparated (t :: t' :: items) = t ++ ',' :: ' ' :: commaSeparated (t' :: items) := by
  simp [commaSeparated, List.intercalate]

end Text

end QueryTemplate
