import QueryTemplate.Text.Basic

/-!
# Decimal digits

The decimal digits of all scripts. They come in runs of ten consecutive code points, so the zeros
determine them: superscripts, circled digits and numerals of other kinds lie in no run.
-/

namespace QueryTemplate

/-- Code points of the zeros of all scripts, in order. -/
def decimalZeros : List Nat :=
  [0x30, 0x660, 0x6f0, 0x7c0, 0x966, 0x9e6, 0xa66, 0xae6, 0xb66, 0xbe6, 0xc66, 0xce6, 0xd66, 0xde6,
   0xe50, 0xed0, 0xf20, 0x1040, 0x1090, 0x17e0, 0x1810, 0x1946, 0x19d0, 0x1a80, 0x1a90, 0x1b50,
   0x1bb0, 0x1c40, 0x1c50, 0xa620, 0xa8d0, 0xa900, 0xa9d0, 0xa9f0, 0xaa50, 0xabf0, 0xff10, 0x104a0,
   0x10d30, 0x11066, 0x110f0, 0x11136, 0x111d0, 0x112f0, 0x11450, 0x114d0, 0x11650, 0x116c0,
   0x11730, 0x118e0, 0x11950, 0x11c50, 0x11d50, 0x11da0, 0x16a60, 0x16ac0, 0x16b50, 0x1d7ce,
   0x1d7d8, 0x1d7e2, 0x1d7ec, 0x1d7f6, 0x1e140, 0x1e2f0, 0x1e950, 0x1fbf0]

/-- The value of a decimal digit of any script. -/
def digitValue? (c : Char) : Option Nat :=
  decimalZeros.findSome? fun z =>
    if z ≤ c.toNat ∧ c.toNat < z + 10 then some (c.toNat - z) else none

def isDecimalDigit (c : Char) : Bool := (digitValue? c).isSome

def digitValue (c : Char) : Nat := (digitValue? c).getD 0

def digitsValue (digits : Text) : Nat := digits.foldl (fun n c => 10 * n + digitValue c) 0

theorem digitValue?_lt {c : Char} {d : Nat} (h : digitValue? c = some d) : d < 10 := by
  obtain ⟨z, -, hz⟩ := List.exists_of_findSome?_eq_some h
  split at hz
  · simp only [Option.some.injEq] at hz
    omega
  · simp at hz

theorem digitValue_lt (c : Char) : digitValue c < 10 := by
  unfold digitValue
  cases h : digitValue? c with
  | none => simp
  | some d => simpa using digitValue?_lt h

theorem digitValue?_of_isDigit {c : Char} (h : c.isDigit) :
    digitValue? c = some (c.toNat - 48) := by
  have hc : 48 ≤ c.toNat ∧ c.toNat < 48 + 10 := by
    simp only [Char.isDigit, Bool.and_eq_true, decide_eq_true_eq, UInt32.le_iff_toNat_le] at h
    have h0 : ('0' : Char).val.toNat = 48 := rfl
    have h9 : ('9' : Char).val.toNat = 57 := rfl
    simp only [Char.toNat]
    omega
  simp [digitValue?, decimalZeros, hc]

end QueryTemplate
