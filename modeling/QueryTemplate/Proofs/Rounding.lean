import Mathlib.Algebra.Order.Field.Power
import QueryTemplate.Proofs.ExactValue
import QueryTemplate.Proofs.NearestRank

/-!
# Rounding to the nearest number

What it means that a fraction is rounded to a floating-point number (`RoundsTo`), in terms of exact
values alone: no number is nearer, of two equally near ones it has the even significand, and a
fraction far outside is rounded to infinity. Integers and decimals are rounded so
(`roundsTo_ofInt`, `roundsTo_ofDecimal`), each of them once. A number that is nearer than all others
is the only one that a fraction can be rounded to (`RoundsTo.value?_eq`); so what is a
floating-point number already stays the same.
-/

namespace QueryTemplate

/-! ## Signs -/

def signed (negative : Bool) (q : ℚ) : ℚ := if negative then -q else q

theorem signed_zero (negative : Bool) : signed negative 0 = 0 := by
  cases negative with
  | false => rfl
  | true => exact neg_zero

theorem signed_natAbs (n : Int) : signed (decide (n < 0)) n.natAbs = n := by
  rcases lt_or_ge n 0 with h | h
  · rw [decide_eq_true h, signed, if_pos rfl, ← Int.cast_natCast, Int.ofNat_natAbs_of_nonpos h.le,
      Int.cast_neg, neg_neg]
  · rw [decide_eq_false (Int.not_lt.2 h), signed, if_neg Bool.false_ne_true, ← Int.cast_natCast,
      Int.natAbs_of_nonneg h]

section Signed

variable {q q' : ℚ}

theorem abs_signed (negative : Bool) (q : ℚ) : |signed negative q| = |q| := by
  cases negative with
  | false => rfl
  | true => exact abs_neg q

theorem abs_signed_sub (negative : Bool) (q q' : ℚ) :
    |signed negative q - signed negative q'| = |q - q'| := by
  cases negative with
  | false => rfl
  | true => rw [signed, signed, if_pos rfl, if_pos rfl, neg_sub_neg, abs_sub_comm]

theorem abs_signed_sub_not (negative : Bool) (q q' : ℚ) :
    |signed negative q - signed (!negative) q'| = |q + q'| := by
  cases negative with
  | false => exact congrArg abs (sub_neg_eq_add q q')
  | true => exact (congrArg abs (neg_add' q q').symm).trans (abs_neg _)

theorem abs_sub_le_abs_signed_sub (hq : 0 ≤ q) (hq' : 0 ≤ q') (negative negative' : Bool) :
    |q - q'| ≤ |signed negative q - signed negative' q'| := by
  have h := abs_abs_sub_abs_le (signed negative q) (signed negative' q')
  rwa [abs_signed, abs_signed, abs_of_nonneg hq, abs_of_nonneg hq'] at h

theorem eq_zero_of_abs_signed_sub (hq : 0 ≤ q) (hq' : 0 ≤ q') {negative negative' : Bool}
    (hne : signed negative' q' ≠ signed negative q')
    (heq : |signed negative q - signed negative' q'| = |q - q'|) : q = 0 := by
  by_cases hsign : negative' = negative
  · exact absurd (congrArg (signed · q') hsign) hne
  · have hpos : q' ≠ 0 := by
      rintro rfl
      simp [signed] at hne
    obtain rfl : negative' = !negative := by cases negative <;> cases negative' <;> simp_all
    rw [abs_signed_sub_not, abs_of_nonneg (add_nonneg hq hq')] at heq
    rcases abs_cases (q - q') with ⟨habs, -⟩ | ⟨habs, -⟩
    · exact absurd (by linarith) hpos
    · linarith

end Signed

/-! ## Powers of ten -/

theorem ten_zpow_eq_div (exponent : Int) :
    (10 : ℚ) ^ exponent =
      (Nat.pow 10 exponent.toNat : Nat) / (Nat.pow 10 (-exponent).toNat : Nat) := by
  rw [Nat.pow_eq, Nat.pow_eq, Nat.cast_pow, Nat.cast_pow, Nat.cast_ofNat]
  rcases Int.le_total 0 exponent with h | h
  · rw [Int.toNat_of_nonpos (Int.neg_nonpos_of_nonneg h), pow_zero, div_one, ← zpow_natCast,
      Int.toNat_of_nonneg h]
  · rw [Int.toNat_of_nonpos h, pow_zero, one_div, ← zpow_natCast,
      Int.toNat_of_nonneg (Int.neg_nonneg_of_nonpos h), zpow_neg, inv_inv]

theorem exists_length_ofNat {n : Nat} (hn : n ≠ 0) :
    ∃ k, (Text.ofNat n).length = k + 1 ∧ 10 ^ k ≤ n ∧ n < 10 ^ (k + 1) := by
  obtain ⟨k, hk⟩ : ∃ k, (Text.ofNat n).length = k + 1 :=
    Nat.exists_eq_add_one.2 Nat.length_toDigits_pos
  refine ⟨k, hk, ?_, hk ▸ (Nat.length_toDigits_le_iff (by decide) Nat.length_toDigits_pos).1 le_rfl⟩
  by_contra hlt
  by_cases hzero : k = 0
  · rw [hzero, Nat.pow_zero] at hlt
    omega
  · have hle := (Nat.length_toDigits_le_iff (by decide) (by omega)).2 (Nat.lt_of_not_le hlt)
    change (Text.ofNat n).length ≤ k at hle
    omega

namespace Binary64

variable {q : ℚ} {rank : Nat}

/-! ## The nearest number -/

/-- The last binary digit of the significand is 0. -/
def HasEvenSignificand : Binary64 → Prop
  | .finite _ rank => significand rank % 2 = 0
  | _ => False

/-- A fraction is rounded to the nearest number; of two numbers that are equally near, to the one
with the even significand; and from half a spacing above the largest number on, to infinity. -/
inductive RoundsTo (q : ℚ) : Binary64 → Prop where
  | finite {x : Binary64} {v : ℚ} (hx : x.value? = some v) (hq : |q| < overflowBound)
      (nearest : ∀ (y : Binary64) (w : ℚ), y.value? = some w → |q - v| ≤ |q - w|)
      (even : ∀ (y : Binary64) (w : ℚ), y.value? = some w → w ≠ v → |q - w| = |q - v| →
        x.HasEvenSignificand) :
      RoundsTo q x
  | infinite (hq : overflowBound ≤ |q|) : RoundsTo q (.infinite (decide (q < 0)))

/-- Whether the sign of a number is minus. NaN has no sign. -/
def negative? : Binary64 → Option Bool
  | .finite negative _ => some negative
  | .infinite negative => some negative
  | .nan => none

theorem significand_mod_two (rank : Nat) : significand rank % 2 = rank % 2 := by
  rw [significand, scale, Nat.pow_eq]
  omega

theorem value?_finite (negative : Bool) (rank : Fin rankBound) :
    (finite negative rank).value? = some (signed negative (units rank / unitsPerOne)) := rfl

theorem value?_eq_some {x : Binary64} {v : ℚ} (h : x.value? = some v) :
    ∃ negative rank, x = .finite negative rank ∧ v = signed negative (units rank / unitsPerOne) := by
  cases x with
  | nan => cases h
  | infinite negative => cases h
  | finite negative rank => exact ⟨negative, rank, rfl, (Option.some.inj h).symm⟩

theorem abs_sub_units (q : ℚ) (rank : Nat) :
    |q * unitsPerOne - units rank| = |q - units rank / unitsPerOne| * unitsPerOne := by
  nth_rewrite 3 [← abs_of_pos cast_unitsPerOne_pos]
  rw [← abs_mul, sub_mul, div_mul_cancel₀ _ cast_unitsPerOne_pos.ne']

theorem abs_sub_units_le_iff (q : ℚ) (rank rank' : Nat) :
    |q * unitsPerOne - units rank| ≤ |q * unitsPerOne - units rank'| ↔
      |q - units rank / unitsPerOne| ≤ |q - units rank' / unitsPerOne| := by
  rw [abs_sub_units, abs_sub_units, mul_le_mul_iff_of_pos_right cast_unitsPerOne_pos]

theorem magnitude_nonneg (rank : Nat) : (0 : ℚ) ≤ units rank / unitsPerOne :=
  div_nonneg (Nat.cast_nonneg _) (Nat.cast_nonneg _)

theorem roundsTo_infinite (negative : Bool) (hq : overflowBound ≤ q) :
    RoundsTo (signed negative q) (.infinite negative) := by
  have hpos : 0 < q :=
    (Nat.cast_pos.2 (Nat.lt_trans Nat.zero_lt_one one_lt_overflowBound)).trans_le hq
  have habs : |signed negative q| = q := (abs_signed negative q).trans (abs_of_pos hpos)
  have hsign : decide (signed negative q < 0) = negative := by
    cases negative with
    | false => exact decide_eq_false (not_lt_of_gt hpos)
    | true => exact decide_eq_true (neg_neg_of_pos hpos)
  have hinfinite : RoundsTo (signed negative q) (.infinite (decide (signed negative q < 0))) :=
    .infinite (hq.trans_eq habs.symm)
  rwa [hsign] at hinfinite

theorem roundsTo_ofRank (negative : Bool) (hq : 0 ≤ q) (h : IsNearestRank (q * unitsPerOne) rank) :
    RoundsTo (signed negative q) (ofRank negative rank) := by
  have hbound := rankBound_le_iff h
  rw [mul_le_mul_iff_of_pos_right cast_unitsPerOne_pos] at hbound
  have habs : |signed negative q| = q := (abs_signed negative q).trans (abs_of_nonneg hq)
  rw [ofRank]
  split
  · rename_i hrank
    refine .finite (value?_finite negative ⟨rank, hrank⟩) ?_ ?_ ?_
    · rw [habs]
      exact lt_of_not_ge fun hge => absurd (hbound.2 hge) (Nat.not_le_of_lt hrank)
    · intro y w hy
      obtain ⟨negative', rank', -, rfl⟩ := value?_eq_some hy
      have hle := (abs_sub_units_le_iff _ _ _).1 (h.le rank')
      calc |signed negative q - signed negative (units rank / unitsPerOne)|
          = |q - units rank / unitsPerOne| := abs_signed_sub negative _ _
        _ ≤ |q - units rank' / unitsPerOne| := hle
        _ ≤ _ := abs_sub_le_abs_signed_sub hq (magnitude_nonneg _) negative negative'
    · intro y w hy hne heq
      obtain ⟨negative', rank', -, rfl⟩ := value?_eq_some hy
      rw [abs_signed_sub] at heq
      have hfar := abs_sub_le_abs_signed_sub hq (magnitude_nonneg rank') negative negative'
      by_cases hrank' : rank'.val = rank
      · -- the number with the other sign: both are 0
        rw [hrank'] at hne heq
        have hzero := eq_zero_of_abs_signed_sub hq (magnitude_nonneg rank) hne heq
        have hle := (abs_sub_units_le_iff _ _ _).1 (h.le 0)
        rw [hzero, units_zero, Nat.cast_zero, zero_div, sub_zero, abs_zero, zero_sub,
          abs_neg] at hle
        rw [abs_nonpos_iff.1 hle, signed_zero, signed_zero] at hne
        exact absurd rfl hne
      · have hle := (abs_sub_units_le_iff _ _ _).1 (h.le rank')
        have heven := h.even rank' hrank'
        rw [abs_sub_units, abs_sub_units] at heven
        exact (significand_mod_two rank).trans (heven (by rw [le_antisymm (heq ▸ hfar) hle]))
  · rename_i hrank
    exact roundsTo_infinite negative (hbound.1 (Nat.le_of_not_lt hrank))

theorem roundsTo_ofRatio (negative : Bool) (num : Nat) {den : Nat} (hden : 0 < den) :
    RoundsTo (signed negative (num / den)) (ofRatio negative num den) :=
  roundsTo_ofRank negative (div_nonneg (Nat.cast_nonneg _) (Nat.cast_nonneg _))
    (isNearestRank_nearestRank num hden)

theorem roundsTo_ofInt (n : Int) : RoundsTo n (ofInt n) := by
  have h := roundsTo_ofRatio (decide (n < 0)) n.natAbs Nat.one_pos
  rwa [Nat.cast_one, div_one, signed_natAbs] at h

/-! ## Decimals -/

theorem decimal_bounds {digits : Nat} (hdigits : digits ≠ 0) (exponent : Int) :
    (10 : ℚ) ^ ((Text.ofNat digits).length + exponent - 1) ≤ digits * 10 ^ exponent ∧
      (digits * 10 ^ exponent : ℚ) < 10 ^ ((Text.ofNat digits).length + exponent) := by
  obtain ⟨k, hk, hlower, hupper⟩ := exists_length_ofNat hdigits
  have hten : (10 : ℚ) ≠ 0 := by norm_num
  have hpos : (0 : ℚ) < 10 ^ exponent := zpow_pos (by norm_num) exponent
  have hlower' : (10 : ℚ) ^ k ≤ digits := by exact_mod_cast hlower
  have hupper' : (digits : ℚ) < 10 ^ (k + 1) := by exact_mod_cast hupper
  have hexponent : ((k + 1 : Nat) + exponent - 1 : Int) = (k : Nat) + exponent := by omega
  rw [hk, hexponent, zpow_add₀ hten, zpow_add₀ hten, zpow_natCast, zpow_natCast]
  exact ⟨mul_le_mul_of_nonneg_right hlower' hpos.le, mul_lt_mul_of_pos_right hupper' hpos⟩

theorem two_mul_unitsPerOne_le : 2 * unitsPerOne ≤ 10 ^ 331 := by decide +kernel

theorem isNearestRank_tiny {q : ℚ} (hq : 0 ≤ q) {k : Nat} (hk : 2 * unitsPerOne ≤ 10 ^ k)
    (hq' : q ≤ 10 ^ (-k : Int)) : IsNearestRank (q * unitsPerOne) 0 := by
  have hpos : (0 : ℚ) < 10 ^ (k : Int) := zpow_pos (by norm_num) _
  have hk' : (2 * unitsPerOne : ℚ) ≤ 10 ^ (k : Int) := by
    rw [zpow_natCast]
    exact_mod_cast hk
  have hunits : (0 : ℚ) ≤ unitsPerOne := Nat.cast_nonneg _
  generalize (unitsPerOne : ℚ) = u at *
  refine isNearestRank_zero (mul_nonneg hq hunits) ?_
  calc 2 * (q * u) = q * (2 * u) := by ring
    _ ≤ 10 ^ (-k : Int) * 10 ^ (k : Int) := mul_le_mul hq' hk' (by positivity) (by positivity)
    _ = 1 := by rw [zpow_neg, inv_mul_cancel₀ hpos.ne']

theorem overflowBound_le_zpow {exponent : Int} (h : 310 ≤ exponent) :
    (overflowBound : ℚ) ≤ 10 ^ exponent := by
  obtain ⟨k, rfl⟩ := Int.eq_ofNat_of_zero_le (show 0 ≤ exponent by omega)
  rw [zpow_natCast]
  exact_mod_cast overflowBound_le_ten_pow (show 310 ≤ k by omega)

/-- **A decimal is rounded once, whatever its exponent.** -/
theorem roundsTo_ofDecimal (negative : Bool) (digits : Nat) (exponent : Int) :
    RoundsTo (signed negative (digits * 10 ^ exponent)) (ofDecimal negative digits exponent) := by
  have hnonneg : (0 : ℚ) ≤ digits * 10 ^ exponent := by positivity
  have hone : (1 : ℚ) ≤ 10 := by norm_num
  simp only [ofDecimal]
  split
  · rename_i htiny
    refine roundsTo_ofRank negative hnonneg (isNearestRank_tiny hnonneg two_mul_unitsPerOne_le ?_)
    by_cases hdigits : digits = 0
    · rw [hdigits, Nat.cast_zero, zero_mul]
      exact zpow_nonneg (by norm_num) _
    · refine (decimal_bounds hdigits exponent).2.le.trans (zpow_le_zpow_right₀ hone ?_)
      omega
  · split
    · rename_i hsmall hlarge
      have hdigits : digits ≠ 0 := fun h => hsmall (.inl h)
      refine roundsTo_infinite negative (le_trans ?_ (decimal_bounds hdigits exponent).1)
      exact overflowBound_le_zpow (by omega)
    · rw [ten_zpow_eq_div, ← mul_div_assoc, ← Nat.cast_mul]
      exact roundsTo_ofRatio negative _ (Nat.pow_pos (by decide))

/-! ## Signs of results -/

theorem negative?_ofRank (negative : Bool) (rank : Nat) :
    (ofRank negative rank).negative? = some negative := by
  rw [ofRank]
  split <;> rfl

theorem negative?_ofDecimal (negative : Bool) (digits : Nat) (exponent : Int) :
    (ofDecimal negative digits exponent).negative? = some negative := by
  simp only [ofDecimal]
  split
  · exact negative?_ofRank negative 0
  · split
    · rfl
    · exact negative?_ofRank negative _

/-! ## Exact numbers -/

theorem abs_lt_of_value? {x : Binary64} {v : ℚ} (h : x.value? = some v) : |v| < overflowBound := by
  obtain ⟨negative, rank, -, rfl⟩ := value?_eq_some h
  rw [abs_signed, abs_of_nonneg (magnitude_nonneg _), div_lt_iff₀ cast_unitsPerOne_pos]
  exact_mod_cast units_lt rank.isLt

theorem RoundsTo.value?_eq {x y : Binary64} {w : ℚ} (h : RoundsTo q x) (hy : y.value? = some w)
    (hq : |q| < overflowBound)
    (hnear : ∀ (z : Binary64) (v : ℚ), z.value? = some v → v ≠ w → |q - w| < |q - v|) :
    x.value? = some w := by
  cases h with
  | finite hx _ nearest _ =>
    rw [hx, Option.some.injEq]
    by_contra hne
    exact absurd (hnear x _ hx hne) (not_lt_of_ge (nearest y w hy))
  | infinite hge => exact absurd hq (not_lt_of_ge hge)

theorem RoundsTo.value?_self {x y : Binary64} (h : RoundsTo q x) (hy : y.value? = some q) :
    x.value? = some q := by
  refine h.value?_eq hy (abs_lt_of_value? hy) fun z v _ hne => ?_
  rw [sub_self, abs_zero]
  exact abs_pos.2 (sub_ne_zero.2 hne.symm)

/-! ## Close to a number -/

theorem abs_le_mul_abs_sub {x y : Binary64} {v w : ℚ} (hx : x.value? = some v)
    (hy : y.value? = some w) (hne : w ≠ v) : |v| ≤ 2 ^ 53 * |v - w| := by
  obtain ⟨negative, rank, -, rfl⟩ := value?_eq_some hx
  obtain ⟨negative', rank', -, rfl⟩ := value?_eq_some hy
  have hnonneg := magnitude_nonneg
  rw [abs_signed, abs_of_nonneg (hnonneg rank)]
  by_cases hrank : rank.val = rank'
  · have hsign : negative' = !negative := by
      rw [← hrank] at hne
      refine Bool.eq_not.2 fun hsign => ?_
      rw [hsign] at hne
      exact hne rfl
    rw [← hrank, hsign, abs_signed_sub_not, abs_of_nonneg (add_nonneg (hnonneg _) (hnonneg _))]
    have hrank := hnonneg rank
    linarith
  · have hfar := abs_sub_le_abs_signed_sub (hnonneg rank) (hnonneg rank') negative negative'
    refine le_trans ?_ (mul_le_mul_of_nonneg_left hfar (by norm_num))
    refine le_of_mul_le_mul_right ?_ cast_unitsPerOne_pos
    rw [mul_assoc, ← abs_sub_units, div_mul_cancel₀ _ cast_unitsPerOne_pos.ne']
    exact units_le_mul_abs_sub hrank

section Close

variable {x : Binary64} {v : ℚ} (hx : x.value? = some v) (hq : 2 * 10 ^ 16 * |q - v| ≤ |v|)
include hx hq

/-- What is as close to a number as 17 digits determine it is not beyond all numbers. -/
theorem abs_lt_of_close : |q| < overflowBound := by
  obtain ⟨negative, rank, -, rfl⟩ := value?_eq_some hx
  obtain ⟨last, hlast, -, hmiddle⟩ := exists_last
  replace hmiddle : (units last + units (last + 1) : ℚ) = 2 * (overflowBound * unitsPerOne) := by
    exact_mod_cast hmiddle
  have hle : (units rank : ℚ) ≤ units last := cast_units_le (by have := rank.isLt; omega)
  have hlt : (units last : ℚ) < units (last + 1) := cast_units_lt last.lt_succ_self
  have hspacing := units_le_mul_abs_sub (show rank.val ≠ last + 1 by have := rank.isLt; omega)
  have htriangle := abs_sub_abs_le_abs_sub q (signed negative (units rank / unitsPerOne))
  rw [abs_signed, abs_of_nonneg (magnitude_nonneg _)] at hq htriangle
  rw [abs_sub_comm, abs_of_nonneg (by linarith)] at hspacing
  -- in units, halfway to the rank of infinity at most
  have hunits : (units rank / unitsPerOne : ℚ) * unitsPerOne = units rank :=
    div_mul_cancel₀ _ cast_unitsPerOne_pos.ne'
  have hclose := mul_le_mul_of_nonneg_right hq cast_unitsPerOne_pos.le
  have hsum := mul_le_mul_of_nonneg_right htriangle cast_unitsPerOne_pos.le
  rw [mul_assoc, hunits] at hclose
  rw [sub_mul, hunits] at hsum
  generalize (overflowBound : ℚ) = bound at *
  refine lt_of_mul_lt_mul_right ?_ cast_unitsPerOne_pos.le
  linarith

/-- What is as close to a number as 17 digits determine it is nearer to it than to all others. -/
theorem abs_sub_lt_of_close {z : Binary64} {w : ℚ} (hz : z.value? = some w) (hne : w ≠ v) :
    |q - v| < |q - w| := by
  have hspacing := abs_le_mul_abs_sub hx hz hne
  have htriangle := abs_sub_le v q w
  have hpos : 0 < |v - w| := abs_pos.2 (sub_ne_zero.2 hne.symm)
  rw [abs_sub_comm v q] at htriangle
  linarith

end Close

/-! ## Integers that are numbers -/

theorem exists_units_eq {n : Nat} (hn : n ≤ 2 ^ 53) :
    ∃ rank < rankBound, units rank = n * unitsPerOne := by
  by_cases hzero : n = 0
  · exact ⟨0, by decide, by rw [units_zero, hzero, Nat.zero_mul]⟩
  obtain ⟨t, ht⟩ : ∃ t, t = 52 - n.log2 := ⟨_, rfl⟩
  have hlower : 2 ^ 52 ≤ n * 2 ^ t := calc
    2 ^ 52 ≤ 2 ^ (n.log2 + t) := Nat.pow_le_pow_right (by decide) (by omega)
    _ = 2 ^ n.log2 * 2 ^ t := Nat.pow_add ..
    _ ≤ n * 2 ^ t := Nat.mul_le_mul_right _ (Nat.log2_self_le hzero)
  have hupper : n * 2 ^ t ≤ 2 ^ 53 := by
    by_cases htop : t = 0
    · rwa [htop, Nat.pow_zero, Nat.mul_one]
    · calc n * 2 ^ t ≤ 2 ^ (n.log2 + 1) * 2 ^ t := Nat.mul_le_mul_right _ Nat.lt_log2_self.le
        _ = 2 ^ (n.log2 + 1 + t) := (Nat.pow_add ..).symm
        _ = 2 ^ 53 := by congr 1; omega
  refine ⟨(1074 - t) * 2 ^ 52 + n * 2 ^ t, ?_, ?_⟩
  · have hbound : rankBound = 2047 * 2 ^ 52 := rfl
    omega
  · have hunits : 2 ^ t * 2 ^ (1074 - t) = unitsPerOne := by
      have hle : t ≤ 1074 := by omega
      unfold unitsPerOne
      generalize 1074 = j at hle ⊢
      rw [← Nat.pow_add, Nat.add_sub_cancel' hle, Nat.pow_eq]
    rw [units_grid hupper (.inl hlower), Nat.mul_assoc, hunits]

theorem exists_value?_eq {n : Int} (hn : n.natAbs ≤ 2 ^ 53) :
    ∃ y : Binary64, y.value? = some (n : ℚ) := by
  obtain ⟨rank, hrank, hunits⟩ := exists_units_eq hn
  refine ⟨.finite (decide (n < 0)) ⟨rank, hrank⟩, ?_⟩
  rw [value?_finite, hunits, Nat.cast_mul, mul_div_cancel_right₀ _ cast_unitsPerOne_pos.ne',
    signed_natAbs]

end Binary64

end QueryTemplate
