import Mathlib.Data.Int.Log
import Mathlib.Data.Rat.Floor
import QueryTemplate.Proofs.DecimalNumeral
import QueryTemplate.Query.Rendering

/-!
# Texts of floating-point numbers

What the reader finds in the literal of a finite number (`Context.floatText_reads_back`): all of it,
and its exact value is the number itself up to half a unit of the last significant digit. A number
with 53 binary digits is apart from its neighbours by more than 17 decimal digits leave open; so
with 17 digits the conversion to a floating-point number gives the number back. This holds also where
the literal has neither a point nor an exponent and is read as an integer.
-/

namespace QueryTemplate

/-! ## Agreement in significant digits -/

/-- A fraction is a number up to half a unit of the last of its significant digits. -/
structure AgreesTo (precision : Nat) (v q : ℚ) : Prop where
  zero : v = 0 → q = 0
  close (e : Int) : 10 ^ e ≤ |v| → |v| < 10 ^ (e + 1) → |q - v| ≤ 10 ^ (e - precision + 1) / 2

namespace AgreesTo

variable {precision : Nat} {v q : ℚ}

theorem signed (h : AgreesTo precision v q) (negative : Bool) :
    AgreesTo precision (signed negative v) (signed negative q) where
  zero hv := by
    rw [← abs_eq_zero, abs_signed, abs_eq_zero] at hv
    rw [h.zero hv, signed_zero]
  close e := by
    rw [abs_signed, abs_signed_sub]
    exact h.close e

theorem of_bounds {e : Int} (hlower : 10 ^ e ≤ |v|) (hupper : |v| < 10 ^ (e + 1))
    (hclose : |q - v| ≤ 10 ^ (e - precision + 1) / 2) : AgreesTo precision v q where
  zero hv := by
    rw [hv, abs_zero] at hlower
    exact absurd hlower (not_le_of_gt (zpow_pos (by norm_num) e))
  close e' hlower' hupper' := by
    have hone : (1 : ℚ) < 10 := by norm_num
    have hle := (zpow_lt_zpow_iff_right₀ hone).1 (hlower.trans_lt hupper')
    have hge := (zpow_lt_zpow_iff_right₀ hone).1 (hlower'.trans_lt hupper)
    obtain rfl : e' = e := by omega
    exact hclose

theorem close_seventeen (h : AgreesTo 17 v q) : 2 * 10 ^ 16 * |q - v| ≤ |v| := by
  by_cases hv : v = 0
  · rw [h.zero hv, hv, sub_zero, abs_zero, mul_zero]
  · have hpos : 0 < |v| := abs_pos.2 hv
    have hlower := Int.zpow_log_le_self (b := 10) (by decide) hpos
    have hupper := Int.lt_zpow_succ_log_self (b := 10) (by decide) |v|
    rw [Nat.cast_ofNat] at hlower hupper
    have hclose := h.close _ hlower hupper
    generalize Int.log 10 |v| = e at hlower hclose
    calc 2 * 10 ^ 16 * |q - v| ≤ 2 * 10 ^ 16 * (10 ^ (e - 17 + 1) / 2) :=
          mul_le_mul_of_nonneg_left hclose (by norm_num)
      _ = 10 ^ e := by
          rw [show e - 17 + 1 = e - 16 by omega, zpow_sub₀ (by norm_num)]
          ring
      _ ≤ |v| := hlower

end AgreesTo

namespace Binary64

/-! ## The numeral of a number -/

def decimal (precision rank : Nat) : Decimal :=
  if rank = 0 then ⟨['0'], 0⟩ else .significant precision (units rank) unitsPerOne

/-- The numeral that is written for a finite number. -/
def numeral (precision : Nat) (negative : Bool) (rank : Nat) : Numeral :=
  (decimal precision rank).numeral precision (if negative then some .minus else none)

section Decimal

variable {precision : Nat} (hprecision : 1 ≤ precision) (negative : Bool)
include hprecision

theorem isWritten_decimal (rank : Nat) : (decimal precision rank).IsWritten := by
  rw [decimal]
  split
  · exact ⟨allDigits_zeros 1, List.cons_ne_nil _ _⟩
  · rename_i hrank
    exact (Decimal.significant_close hprecision (units_pos hrank) unitsPerOne_pos).1

theorem agreesTo_decimal (rank : Nat) :
    AgreesTo precision (units rank / unitsPerOne) (decimal precision rank).value := by
  rw [decimal]
  split
  · rename_i hrank
    have hzero : Decimal.value ⟨['0'], 0⟩ = 0 := by
      have hdigits : digitsValue ['0'] = 0 := by decide
      rw [Decimal.value, hdigits, Nat.cast_zero, zero_mul]
    rw [hrank, units_zero, Nat.cast_zero, zero_div, hzero]
    refine ⟨fun _ => rfl, fun e _ _ => ?_⟩
    rw [sub_zero, abs_zero]
    positivity
  · rename_i hrank
    obtain ⟨hlower, hupper⟩ := Decimal.leadingExponent_bounds (units_pos hrank) unitsPerOne_pos
    rw [← abs_of_nonneg (magnitude_nonneg rank)] at hlower hupper
    exact .of_bounds hlower hupper
      (Decimal.significant_close hprecision (units_pos hrank) unitsPerOne_pos).2

theorem agreesTo_numeral (rank : Nat) :
    AgreesTo precision (signed negative (units rank / unitsPerOne))
      (numeral precision negative rank).value := by
  have hsign : decide ((if negative then some Sign.minus else none) = some .minus) = negative := by
    cases negative <;> rfl
  rw [numeral, Decimal.value_numeral, hsign]
  exact (agreesTo_decimal hprecision rank).signed negative

theorem text_numeral (rank : Fin rankBound) :
    (numeral precision negative rank).text = literalText precision (.finite negative rank) := by
  rw [numeral, Decimal.text_numeral _ _ (isWritten_decimal hprecision rank)]
  cases negative <;> rfl

theorem leading?_literalText (rank : Fin rankBound) :
    Numeral.leading? (literalText precision (.finite negative rank)) =
      some (numeral precision negative rank) := by
  rw [← text_numeral hprecision]
  exact Numeral.leading?_text
    (Decimal.wellFormed_numeral _ _ (isWritten_decimal hprecision rank))

end Decimal

end Binary64

/-! ## Seventeen digits -/

theorem Number.toBinary64_ofInt {i : Int} {v : ℚ} (h : (Binary64.ofInt i).value? = some v) :
    (int i).toBinary64 = .ok (.ofInt i) := by
  rw [toBinary64_eq rfl, nearestUnder]
  generalize Binary64.ofInt i = x at h ⊢
  cases x with
  | infinite negative => cases h
  | nan => rfl
  | finite negative rank => rfl

theorem Numeral.toBinary64_of_agreesTo {n : Numeral} {t : Text} {x : Binary64} {v : ℚ}
    (hn : leading? t = some n) (hlength : n.whole.length ≤ digitLimit) (hx : x.value? = some v)
    (h : AgreesTo 17 v n.value) :
    ∃ y, (Datum.scalar (.text t)).toBinary64 = .ok y ∧ y.value? = some v := by
  have hclose := h.close_seventeen
  have hrounds : ∀ {y}, Binary64.RoundsTo n.value y → y.value? = some v := fun hy =>
    hy.value?_eq hx (Binary64.abs_lt_of_close hx hclose) fun _ _ =>
      Binary64.abs_sub_lt_of_close hx hclose
  rw [Datum.toBinary64, Datum.number_text hn]
  have hspells := spells_number hn
  generalize n.number = number at hspells ⊢
  cases hspells with
  | int _ _ hi =>
    have hvalue := hrounds (hi ▸ Binary64.roundsTo_ofInt _)
    refine ⟨_, ?_, hvalue⟩
    rw [Except.bind, Number.toBinary64_ofInt hvalue]
  | long _ hlong => exact absurd hlong (Nat.not_lt.2 hlength)
  | float _ hy => exact ⟨_, rfl, hrounds hy⟩

/-- **The literal of a finite number is one numeral, which agrees with the number; and with 17
digits it is read as that number again.** -/
theorem Context.floatText_reads_back (ctx : Context) {x : Binary64} {v : ℚ}
    (hx : x.value? = some v) :
    ∃ n, Numeral.leading? (ctx.floatText x) = some n ∧ n.text = ctx.floatText x ∧
      AgreesTo ctx.settings.precision.digits v n.value ∧
      (ctx.settings.precision.digits = 17 →
        ∃ d y, (Argument.scalar (.text (ctx.floatText x))).classify = .ok (.datum d) ∧
          d.toBinary64 = .ok y ∧ y.value? = some v) := by
  obtain ⟨negative, rank, rfl, rfl⟩ := Binary64.value?_eq_some hx
  have hprecision := ctx.settings.precision.one_le
  have hread := Binary64.leading?_literalText hprecision negative rank
  have hagrees := Binary64.agreesTo_numeral hprecision negative rank
  refine ⟨_, hread, Binary64.text_numeral hprecision negative rank, hagrees, fun hseventeen => ?_⟩
  have hlength : (Binary64.numeral ctx.settings.precision.digits negative rank).whole.length ≤
      digitLimit :=
    (Decimal.length_whole_numeral_le _ _).trans (by rw [hseventeen]; decide)
  rw [hseventeen] at hagrees
  obtain ⟨y, hy, hvalue⟩ := Numeral.toBinary64_of_agreesTo hread hlength hx (hseventeen ▸ hagrees)
  exact ⟨_, y, rfl, hy, hvalue⟩

/-- The least number with a minus sign, and a carry to the next power of ten. -/
theorem Context.floatText_reads_back_least :
    let ctx : Context := ⟨.builtin .mysql, { precision := ⟨17, by decide, by decide⟩ }, []⟩
    let ctx' : Context := ⟨.builtin .mysql, { precision := ⟨3, by decide, by decide⟩ }, []⟩
    let least : Binary64 := .finite true ⟨1, by decide⟩
    let x : Binary64 := .ofDecimal false 9995 (-1)
    ctx.floatText least = "-4.9406564584124654E-324".toList ∧
      (∃ v d y, least.value? = some v ∧
        (Argument.scalar (.text (ctx.floatText least))).classify = .ok (.datum d) ∧
        d.toBinary64 = .ok y ∧ y.value? = some v) ∧
      ctx'.floatText x = "1E+03".toList ∧
      ∃ v n, x.value? = some v ∧ Numeral.leading? (ctx'.floatText x) = some n ∧
        AgreesTo 3 v n.value := by
  intro ctx ctx' least x
  obtain ⟨v, hv⟩ : ∃ v, least.value? = some v := ⟨_, rfl⟩
  obtain ⟨v', hv'⟩ : ∃ v, x.value? = some v := Option.isSome_iff_exists.1 (by decide +kernel)
  obtain ⟨-, -, -, -, hback⟩ := ctx.floatText_reads_back hv
  obtain ⟨n, hread, -, hagrees, -⟩ := ctx'.floatText_reads_back hv'
  obtain ⟨d, y, hd, hy, hvalue⟩ := hback rfl
  exact ⟨by decide +kernel, ⟨v, d, y, hv, hd, hy, hvalue⟩, by decide +kernel,
    ⟨v', n, hv', hread, hagrees⟩⟩

end QueryTemplate
