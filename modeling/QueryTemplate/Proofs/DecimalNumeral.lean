import QueryTemplate.Proofs.DecimalRounding
import QueryTemplate.Proofs.LeadingNumber

/-!
# Decimals as numerals

The text of a decimal is one numeral in each of its three layouts (`Decimal.numeral`): with zeros
behind the point, with the point among the digits, and with an exponent. All of them are digits
around a point (`Numeral.around`), and so they spell the decimal (`Decimal.value_numeral`) for one
reason.
-/

namespace QueryTemplate

/-! ## Exponents -/

def FloatStyle.exponentNumeral (e : Int) : Exponent :=
  let digits := Text.ofNat e.natAbs
  ⟨'E', some (if e < 0 then .minus else .plus), List.replicate (2 - digits.length) '0' ++ digits⟩

namespace FloatStyle

theorem wellFormed_exponentNumeral (e : Int) : (exponentNumeral e).WellFormed where
  mark := .inr rfl
  digits := List.forall_mem_append.2 ⟨allDigits_zeros _, allDigits_ofNat _⟩
  ne_nil := List.append_ne_nil_of_right_ne_nil _ Nat.toDigits_ne_nil

theorem text_exponentNumeral (e : Int) : (exponentNumeral e).text = 'E' :: exponentText e := by
  rw [exponentNumeral, exponentText, Exponent.text]
  split <;> rfl

theorem value_exponentNumeral (e : Int) : (exponentNumeral e).value = e := by
  have hdigits : digitsValue (exponentNumeral e).digits = e.natAbs := by
    rw [exponentNumeral, digitsValue_zeros_append, digitsValue_ofNat]
  have hsign : (exponentNumeral e).sign = some .minus ↔ e < 0 := by
    simp [exponentNumeral]
  rw [Exponent.value, hdigits, Sign.apply_natAbs hsign]

end FloatStyle

/-! ## Digits around a point -/

namespace Numeral

/-- Digits with a sign, `places` of them before the point; missing ones are zeros there, and the
point is left out when no digit is behind it. -/
def around (sign : Option Sign) (digits : Text) (places : Nat) (exponent : Option Exponent) :
    Numeral :=
  let fraction := digits.drop places
  ⟨sign, digits.take places ++ List.replicate (places - digits.length) '0',
    if fraction.isEmpty then none else some fraction, exponent⟩

section Around

variable (sign : Option Sign) (digits : Text) (places : Nat) (exponent : Option Exponent)

theorem fraction_around :
    (around sign digits places exponent).fraction.getD [] = digits.drop places := by
  simp only [around]
  split
  · rename_i h
    exact (List.isEmpty_iff.1 h).symm
  · rfl

theorem length_whole_around : (around sign digits places exponent).whole.length = places := by
  simp only [around, List.length_append, List.length_take, List.length_replicate]
  omega

theorem text_around (precision : Nat) :
    (around sign digits places exponent).text =
      Sign.text sign ++ ((FloatStyle.literal precision).positional digits places ++
        exponent.elim [] Exponent.text) := by
  simp only [text_eq, mantissaText, around, FloatStyle.positional, FloatStyle.literal]
  split
  · rfl
  · rfl

variable {digits places exponent}

theorem wellFormed_around (hdigits : AllDigits digits) (hplaces : 0 < places)
    (hexponent : ∀ e ∈ exponent, e.WellFormed) :
    (around sign digits places exponent).WellFormed := by
  refine ⟨⟨?_, ?_, .inl ?_⟩, hexponent⟩
  · exact List.forall_mem_append.2
      ⟨fun c hc => hdigits c (List.mem_of_mem_take hc), allDigits_zeros _⟩
  · intro t ht c hc
    have hfraction := fraction_around sign digits places exponent
    rw [Option.mem_def.1 ht, Option.getD_some] at hfraction
    exact hdigits c (List.mem_of_mem_drop (hfraction ▸ hc))
  · refine List.ne_nil_of_length_pos ?_
    rwa [length_whole_around]

theorem value_around :
    (around sign digits places exponent).value =
      signed (decide (sign = some .minus))
        (digitsValue digits *
          10 ^ (places - digits.length + exponent.elim 0 Exponent.value : Int)) := by
  have hten : (10 : ℚ) ≠ 0 := by norm_num
  rw [value_eq, power, Numeral.digits, fraction_around]
  change signed (decide (sign = some .minus)) (digitsValue (digits.take places ++
    List.replicate (places - digits.length) '0' ++ digits.drop places) *
      10 ^ (exponent.elim 0 Exponent.value - (digits.drop places).length : Int)) = _
  rw [List.length_drop]
  congr 1
  rcases Nat.le_total digits.length places with hle | hle
  · rw [List.take_of_length_le hle, List.drop_eq_nil_of_le hle, List.append_nil,
      digitsValue_append_zeros, Nat.cast_mul, Nat.cast_pow, Nat.cast_ofNat, ← zpow_natCast, mul_assoc,
      ← zpow_add₀ hten]
    congr 2
    omega
  · rw [Nat.sub_eq_zero_of_le hle, List.replicate_zero, List.append_nil, List.take_append_drop]
    congr 2
    omega

end Around

end Numeral

/-! ## Layouts -/

namespace Decimal

def numeral (precision : Nat) (sign : Option Sign) (d : Decimal) : Numeral :=
  if -4 ≤ d.exponent ∧ d.exponent < precision then
    if d.exponent < 0 then
      .around sign (List.replicate d.exponent.natAbs '0' ++ d.digits) 1 none
    else .around sign d.digits (d.exponent.natAbs + 1) none
  else .around sign d.digits 1 (some (FloatStyle.exponentNumeral d.exponent))

section Numeral

variable (precision : Nat) (sign : Option Sign) {d : Decimal}

theorem length_whole_numeral_le : (d.numeral precision sign).whole.length ≤ max 1 precision := by
  rw [numeral]
  split
  · split
    · rw [Numeral.length_whole_around]
      exact Nat.le_max_left _ _
    · rw [Numeral.length_whole_around]
      omega
  · rw [Numeral.length_whole_around]
    exact Nat.le_max_left _ _

theorem value_numeral :
    (d.numeral precision sign).value = signed (decide (sign = some .minus)) d.value := by
  rw [numeral, value]
  split
  · split
    · rw [Numeral.value_around, digitsValue_zeros_append, List.length_append, List.length_replicate,
        Option.elim_none]
      congr 3
      omega
    · rw [Numeral.value_around, Option.elim_none]
      congr 3
      omega
  · rw [Numeral.value_around, Option.elim_some, FloatStyle.value_exponentNumeral]
    congr 3
    omega

variable (h : d.IsWritten)
include h

theorem wellFormed_numeral : (d.numeral precision sign).WellFormed := by
  rw [numeral]
  split
  · split
    · exact Numeral.wellFormed_around sign
        (List.forall_mem_append.2 ⟨allDigits_zeros _, h.allDigits⟩) Nat.one_pos nofun
    · exact Numeral.wellFormed_around sign h.allDigits (Nat.succ_pos _) nofun
  · refine Numeral.wellFormed_around sign h.allDigits Nat.one_pos ?_
    rintro e ⟨⟩
    exact FloatStyle.wellFormed_exponentNumeral _

theorem text_numeral :
    (d.numeral precision sign).text =
      Sign.text sign ++ (FloatStyle.literal precision).decimalText d := by
  obtain ⟨c, digits, hdigits⟩ := List.exists_cons_of_ne_nil h.ne_nil
  rw [numeral, FloatStyle.decimalText]
  have hend : (FloatStyle.literal precision).positionalEnd = precision := rfl
  rw [hend]
  split
  · split
    · obtain ⟨k, hk⟩ : ∃ k, d.exponent.natAbs = k + 1 := Nat.exists_eq_add_one.2 (by omega)
      rw [Numeral.text_around sign _ _ _ precision, hk, Nat.add_sub_cancel]
      simp [FloatStyle.positional, List.replicate_succ, h.ne_nil]
    · rw [Numeral.text_around sign _ _ _ precision, Option.elim_none, List.append_nil]
  · rw [Numeral.text_around sign _ _ _ precision, Option.elim_some, FloatStyle.text_exponentNumeral,
      hdigits]
    simp [FloatStyle.positional, FloatStyle.literal]

end Numeral

end Decimal

end QueryTemplate
