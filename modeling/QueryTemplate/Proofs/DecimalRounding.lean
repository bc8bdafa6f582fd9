import QueryTemplate.Number.Decimal
import QueryTemplate.Proofs.Magnitude
import QueryTemplate.Proofs.NumeralGrammar
import QueryTemplate.Proofs.Rounding

/-!
# Rounding to significant digits

The exact value of a decimal (`Decimal.value`), and how far it is from the fraction that it is
rounded from (`Decimal.significant_close`): half a unit of the last digit at most. The grid on which
a fraction is rounded is chosen by its leading exponent (`leadingExponent_bounds`), before any carry;
a carry only gives the decimal one more digit before the point, and its value is still on the grid.
-/

namespace QueryTemplate

theorem nearest_abs_sub (num : Nat) {den : Nat} (hden : 0 < den) :
    |(nearest num den : ℚ) - num / den| ≤ 1 / 2 := by
  obtain ⟨hupper, hlower⟩ := nearest_close num hden
  have hden' : (0 : ℚ) < den := Nat.cast_pos.2 hden
  have hupper' : (2 * num : ℚ) ≤ (2 * nearest num den + 1) * den := by exact_mod_cast hupper
  have hlower' : (2 * nearest num den * den : ℚ) ≤ 2 * num + den := by exact_mod_cast hlower
  have hnum : (num : ℚ) / den * den = num := div_mul_cancel₀ _ hden'.ne'
  rw [abs_sub_le_iff]
  constructor
  · refine le_of_mul_le_mul_right ?_ hden'
    linarith
  · refine le_of_mul_le_mul_right ?_ hden'
    linarith

/-! ## Zeros around digits -/

theorem allDigits_zeros (k : Nat) : AllDigits (List.replicate k '0') := by
  intro c hc
  rw [List.eq_of_mem_replicate hc]
  decide

theorem digitsValue_zeros (k : Nat) : digitsValue (List.replicate k '0') = 0 := by
  induction k with
  | zero => rfl
  | succ k ih =>
    rw [List.replicate_succ', digitsValue_concat, ih]
    rfl

theorem digitsValue_zeros_append (k : Nat) (digits : Text) :
    digitsValue (List.replicate k '0' ++ digits) = digitsValue digits := by
  rw [digitsValue_append, digitsValue_zeros, Nat.zero_mul, Nat.zero_add]

theorem digitsValue_append_zeros (digits : Text) (k : Nat) :
    digitsValue (digits ++ List.replicate k '0') = digitsValue digits * 10 ^ k := by
  rw [digitsValue_append, digitsValue_zeros, List.length_replicate, Nat.add_zero]

namespace Decimal

/-! ## Exact values -/

def value (d : Decimal) : ℚ := digitsValue d.digits * 10 ^ (d.exponent + 1 - d.digits.length)

structure IsWritten (d : Decimal) : Prop where
  allDigits : AllDigits d.digits
  ne_nil : d.digits ≠ []

theorem trimmedDigits_append (n : Nat) :
    ∃ k, trimmedDigits n ++ List.replicate k '0' = Text.ofNat n := by
  refine ⟨((Text.ofNat n).reverse.takeWhile (· == '0')).length, ?_⟩
  have hzeros : (Text.ofNat n).reverse.takeWhile (· == '0')
      = List.replicate ((Text.ofNat n).reverse.takeWhile (· == '0')).length '0' :=
    List.eq_replicate_iff.2 ⟨rfl, fun c hc => by simpa using List.mem_takeWhile_imp hc⟩
  have hsplit := congrArg List.reverse
    (List.takeWhile_append_dropWhile (p := (· == '0')) (l := (Text.ofNat n).reverse))
  rwa [List.reverse_append, List.reverse_reverse, hzeros, List.reverse_replicate] at hsplit

theorem isWritten_ofGrid (places : Int) {n : Nat} (hn : n ≠ 0) : (ofGrid places n).IsWritten := by
  obtain ⟨k, hk⟩ := trimmedDigits_append n
  constructor
  · intro c hc
    exact allDigits_ofNat n c (hk ▸ List.mem_append_left _ hc)
  · intro hnil
    rw [show trimmedDigits n = [] from hnil, List.nil_append] at hk
    have hzero := digitsValue_ofNat n
    rw [← hk, digitsValue_zeros] at hzero
    exact hn hzero.symm

theorem value_ofGrid (places : Int) (n : Nat) : (ofGrid places n).value = n * 10 ^ (-places) := by
  obtain ⟨k, hk⟩ := trimmedDigits_append n
  have hten : (10 : ℚ) ≠ 0 := by norm_num
  have hlength : (Text.ofNat n).length = (trimmedDigits n).length + k := by
    rw [← hk, List.length_append, List.length_replicate]
  have hdigits : n = digitsValue (trimmedDigits n) * 10 ^ k := by
    rw [← digitsValue_append_zeros, hk, digitsValue_ofNat]
  have hexponent : ((Text.ofNat n).length - 1 - places + 1 - (trimmedDigits n).length : Int)
      = k + -places := by omega
  change (digitsValue (trimmedDigits n) : ℚ) * 10 ^ ((Text.ofNat n).length - 1 - places + 1
    - (trimmedDigits n).length : Int) = n * 10 ^ (-places)
  rw [hexponent, zpow_add₀ hten, zpow_natCast, ← mul_assoc]
  congr 1
  exact_mod_cast hdigits.symm

/-! ## The leading exponent -/

/-- **The leading exponent of a fraction is its order of magnitude.** -/
theorem leadingExponent_bounds {num den : Nat} (hnum : 0 < num) (hden : 0 < den) :
    (10 : ℚ) ^ leadingExponent num den ≤ num / den ∧
      (num : ℚ) / den < 10 ^ (leadingExponent num den + 1) := by
  have hnum' : (0 : ℚ) < num := Nat.cast_pos.2 hnum
  have hden' : (0 : ℚ) < den := Nat.cast_pos.2 hden
  rw [leadingExponent]
  split
  · rename_i hle
    obtain ⟨k, hk, hlower, hupper⟩ :=
      exists_length_ofNat (Nat.pos_iff_ne_zero.1 (Nat.div_pos hle hden))
    rw [Nat.le_div_iff_mul_le hden] at hlower
    rw [Nat.div_lt_iff_lt_mul hden] at hupper
    have hexponent : ((k + 1 : Nat) - 1 : Int) = (k : Nat) := by omega
    rw [hk, hexponent, le_div_iff₀ hden', div_lt_iff₀ hden', ← Nat.cast_succ, zpow_natCast,
      zpow_natCast]
    exact ⟨by exact_mod_cast hlower, by exact_mod_cast hupper⟩
  · rename_i hlt
    obtain ⟨k, hk, hlower, hupper⟩ :=
      exists_length_ofNat (Nat.pos_iff_ne_zero.1 (Nat.div_pos (show num ≤ den - 1 by omega) hnum))
    rw [Nat.le_div_iff_mul_le hnum] at hlower
    rw [Nat.div_lt_iff_lt_mul hnum] at hupper
    have hexponent : (-((k + 1 : Nat) : Int) + 1) = -(k : Nat) := by omega
    rw [hk, hexponent, zpow_neg, zpow_neg, zpow_natCast, zpow_natCast, le_div_iff₀ hden',
      div_lt_iff₀ hden', inv_mul_le_iff₀ (by positivity), lt_inv_mul_iff₀ (by positivity)]
    constructor
    · exact_mod_cast (show den ≤ 10 ^ (k + 1) * num by omega)
    · exact_mod_cast (show 10 ^ k * num < den by omega)

/-! ## Significant digits -/

theorem onGrid_den_pos (places : Int) (num : Nat) {den : Nat} (hden : 0 < den) :
    0 < (onGrid places num den).2 :=
  Nat.mul_pos hden (Nat.pow_pos (by decide))

theorem onGrid_eq (places : Int) (num den : Nat) :
    ((onGrid places num den).1 : ℚ) / (onGrid places num den).2 = num / den * 10 ^ places := by
  rw [onGrid, ten_zpow_eq_div, Nat.cast_mul, Nat.cast_mul, div_mul_div_comm]

section Significant

variable {precision num den : Nat}

/-- **Rounding to significant digits moves a fraction by half a unit of the last digit at most.** -/
theorem significant_close (hprecision : 1 ≤ precision) (hnum : 0 < num) (hden : 0 < den) :
    (significant precision num den).IsWritten ∧
      |(significant precision num den).value - num / den| ≤
        10 ^ (leadingExponent num den - precision + 1) / 2 := by
  obtain ⟨places, hplaces⟩ : ∃ places, precision - 1 - leadingExponent num den = places := ⟨_, rfl⟩
  have hgrid : (0 : ℚ) < 10 ^ (-places) := zpow_pos (by norm_num) _
  have hclose := nearest_abs_sub (onGrid places num den).1 (onGrid_den_pos places num hden)
  rw [onGrid_eq] at hclose
  have hsignificant : significant precision num den
      = ofGrid places (nearest (onGrid places num den).1 (onGrid places num den).2) := by
    rw [← hplaces]
    rfl
  rw [hsignificant]
  generalize nearest (onGrid places num den).1 (onGrid places num den).2 = n at hclose ⊢
  constructor
  · refine isWritten_ofGrid places ?_
    -- the quotient on the grid has a digit before the point at least
    rintro rfl
    have hone : (1 : ℚ) ≤ num / den * 10 ^ places := by
      calc (1 : ℚ) ≤ 10 ^ (leadingExponent num den + places) :=
            one_le_zpow₀ (by norm_num) (by omega)
        _ = 10 ^ leadingExponent num den * 10 ^ places := zpow_add₀ (by norm_num) _ _
        _ ≤ num / den * 10 ^ places :=
            mul_le_mul_of_nonneg_right (leadingExponent_bounds hnum hden).1 (by positivity)
    rw [Nat.cast_zero, zero_sub, abs_neg, abs_of_nonneg (zero_le_one.trans hone)] at hclose
    linarith
  · have hscale : (num : ℚ) / den = num / den * 10 ^ places * 10 ^ (-places) := by
      rw [mul_assoc, ← zpow_add₀ (by norm_num), add_neg_cancel, zpow_zero, mul_one]
    have hexponent : leadingExponent num den - precision + 1 = -places := by omega
    rw [value_ofGrid, hexponent]
    nth_rewrite 1 [hscale]
    rw [← sub_mul, abs_mul, abs_of_pos hgrid]
    calc _ ≤ 1 / 2 * (10 : ℚ) ^ (-places) := mul_le_mul_of_nonneg_right hclose hgrid.le
      _ = 10 ^ (-places) / 2 := by ring

end Significant

end Decimal

end QueryTemplate
