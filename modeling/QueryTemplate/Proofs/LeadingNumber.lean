import QueryTemplate.Proofs.Counting
import QueryTemplate.Proofs.Rounding

/-!
# The number at the start of a text

The exact value of a numeral (`Numeral.value`), place by place, and what the numeral at the start of
a text is read as (`Numeral.leading?_longest`): the longest numeral of the grammar counts, alone; an
integer is read exactly, within the limit on digits, and any other number is its exact value, rounded
once. What follows behind a character that stands in no numeral does not matter.
-/

namespace QueryTemplate

theorem Sign.apply_eq_signed (sign : Option Sign) (n : Nat) :
    ((Sign.apply sign n : Int) : ℚ) = signed (decide (sign = some .minus)) n := by
  rw [Sign.apply]
  split
  · rename_i h
    rw [decide_eq_true h, Int.cast_neg, Int.cast_natCast]
    rfl
  · rename_i h
    rw [decide_eq_false h, Int.cast_natCast]
    rfl

namespace Numeral

/-! ## Exact values -/

def value (n : Numeral) : ℚ :=
  let fraction := n.fraction.getD []
  signed (decide (n.sign = some .minus))
    ((digitsValue n.whole + digitsValue fraction / 10 ^ fraction.length) *
      10 ^ n.exponent.elim 0 Exponent.value)

theorem value_eq (n : Numeral) :
    n.value = signed (decide (n.sign = some .minus)) (digitsValue n.digits * 10 ^ n.power) := by
  have hten : (10 : ℚ) ≠ 0 := by norm_num
  rw [value, digits, power, digitsValue_append, zpow_sub₀ hten, zpow_natCast]
  congr 1
  push_cast
  field_simp

theorem value_of_isInteger {n : Numeral} (h : n.isInteger) :
    n.value = (Sign.apply n.sign (digitsValue n.whole) : Int) := by
  obtain ⟨sign, whole, fraction, exponent⟩ := n
  simp only [isInteger, Bool.and_eq_true, Option.isNone_iff_eq_none] at h
  obtain ⟨rfl, rfl⟩ := h
  rw [Sign.apply_eq_signed]
  simp [value, digitsValue]

theorem roundsTo_value (n : Numeral) :
    Binary64.RoundsTo n.value
      (.ofDecimal (decide (n.sign = some .minus)) (digitsValue n.digits) n.power) := by
  rw [value_eq]
  exact Binary64.roundsTo_ofDecimal _ _ _

/-- What a numeral is read as, in terms of its exact value: an integer within the limit on digits,
an error beyond it, or the nearest floating-point number with the same sign. -/
inductive Spells (n : Numeral) : Except BuildError Number → Prop where
  | int {i : Int} (hu : n.Unmarked) (hlength : n.whole.length ≤ digitLimit)
    (hi : (i : ℚ) = n.value) : Spells n (.ok (.int i))
  | long (hu : n.Unmarked) (hlength : digitLimit < n.whole.length) :
    Spells n (.error (.unreadableInteger n.whole.length))
  | float {x : Binary64} (hu : ¬n.Unmarked) (hx : Binary64.RoundsTo n.value x)
    (hsign : x.negative? = some (decide (n.sign = some .minus))) : Spells n (.ok (.float x))

theorem spells_number {t : Text} {n : Numeral} (h : leading? t = some n) : Spells n n.number := by
  by_cases hu : n.Unmarked
  · rcases Nat.lt_or_ge digitLimit n.whole.length with hlength | hlength
    · rw [n.number_of_long h hu hlength]
      exact .long hu hlength
    · rw [n.number_of_short h hu hlength]
      exact .int hu hlength (value_of_isInteger ((isInteger_iff h).2 hu)).symm
  · rw [number, if_neg fun hinteger => hu ((isInteger_iff h).1 hinteger)]
    exact .float hu n.roundsTo_value (Binary64.negative?_ofDecimal _ _ _)

/-! ## The numeral at the start -/

theorem leading?_append {s : Text} {n : Numeral} (h : leading? s = some n) (t : Text) :
    leading? (s ++ t) = (read? (s.dropWhile isBlank ++ t)).map (·.1) := by
  rw [leading?, List.dropWhile_append]
  split
  · rename_i hblank
    rw [leading?, List.isEmpty_iff.1 hblank] at h
    cases h
  · rfl

/-- **The longest numeral at the start counts, and nothing else.** -/
theorem leading?_longest (s : Text) :
    (leading? s = none ↔ ∀ t, t <+: s.dropWhile isBlank → ¬IsNumeral t) ∧
    ∀ n, leading? s = some n →
      (n.WellFormed ∧ n.text <+: s.dropWhile isBlank ∧
        ∀ t, t <+: s.dropWhile isBlank → IsNumeral t → t.length ≤ n.text.length) ∧
      Spells n n.number ∧ (Datum.scalar (.text s)).number = n.number ∧
      ∀ c t, isDecimalDigit c = false → c ∉ ['+', '-', '.', 'e', 'E'] →
        leading? (s ++ c :: t) = some n := by
  refine ⟨?_, fun n h => ⟨?_, spells_number h, Datum.number_text h, ?_⟩⟩
  · rw [leading?, Option.map_eq_none_iff]
    exact read?_eq_none_iff _
  · obtain ⟨⟨n', rest⟩, hread, rfl⟩ := Option.map_eq_some_iff.1 h
    obtain ⟨hn, htext⟩ := read?_sound hread
    exact ⟨hn, ⟨rest, htext⟩, fun t => length_le_of_read? hread⟩
  · intro c t hdigit hc
    obtain ⟨⟨n', rest⟩, hread, rfl⟩ := Option.map_eq_some_iff.1 h
    obtain ⟨rest', hmore⟩ := read?_append_of_not_mem hread hdigit hc t
    rw [leading?_append h, hmore, Option.map_some]

/-- A blank, a digit of another script, and the beginning of an exponent without digits. -/
theorem leading?_longest_dangling :
    let s : Text := ['\u00a0', '-', '\u0663', '.', 'e', '+']
    let n : Numeral := ⟨some .minus, ['\u0663'], some [], none⟩
    leading? s = some n ∧ (∀ t, t <+: ['-', '\u0663', '.', 'e', '+'] → IsNumeral t → t.length ≤ 3) ∧
      (∃ x, n.number = .ok (.float x) ∧ Binary64.RoundsTo n.value x) ∧
      leading? (s ++ [' ', '5']) = some n := by
  intro s n
  have h : leading? s = some n := by decide
  obtain ⟨-, hlongest⟩ := leading?_longest s
  obtain ⟨⟨-, -, hlength⟩, hnumber, -, happend⟩ := hlongest n h
  have hmarked : ¬n.Unmarked := fun hu => hu '.' (by decide) (by decide)
  refine ⟨h, hlength, ?_, happend ' ' ['5'] (by decide) (by decide)⟩
  generalize n.number = number at hnumber
  cases hnumber with
  | int hu => exact absurd hu hmarked
  | long hu => exact absurd hu hmarked
  | float _ hx => exact ⟨_, rfl, hx⟩

end Numeral

end QueryTemplate
