import Mathlib.Algebra.Order.Field.Rat
import Mathlib.Algebra.Order.Ring.Cast
import QueryTemplate.Value.Scalar

/-!
# Exact values

The exact rational value of a floating-point number, and the number that a scalar equals: a boolean
counts as 0 or 1, and a text, NaN or an infinity as no number. Two scalars that are numbers are
equal, whatever their types, when these values are. `integer?_eq_some_iff` says that the integer of
a scalar is the one that it equals.
-/

namespace QueryTemplate

/-- The exact value of a number. NaN and the infinities have none. -/
def Binary64.value? : Binary64 → Option ℚ
  | .finite negative rank =>
    let magnitude : ℚ := Binary64.units rank / unitsPerOne
    some (if negative then -magnitude else magnitude)
  | _ => none

def Scalar.value? : Scalar → Option ℚ
  | .null => none
  | .bool b => some (b.toNat : ℚ)
  | .int n => some (n : ℚ)
  | .float x => x.value?
  | .text _ => none

theorem div_eq_natCast_iff (u : Nat) {d : Nat} (hd : 0 < d) (k : Nat) :
    (u : ℚ) / d = k ↔ u % d = 0 ∧ k = u / d := by
  have hd' : (d : ℚ) ≠ 0 := Nat.cast_ne_zero.2 (Nat.pos_iff_ne_zero.1 hd)
  rw [div_eq_iff hd', ← Nat.cast_mul, Nat.cast_inj]
  constructor
  · rintro rfl
    exact ⟨Nat.mul_mod_left k d, (Nat.mul_div_cancel k hd).symm⟩
  · rintro ⟨hmod, rfl⟩
    exact (Nat.div_mul_cancel (Nat.dvd_of_mod_eq_zero hmod)).symm

theorem div_eq_intCast_iff (u : Nat) {d : Nat} (hd : 0 < d) (i : Int) :
    (u : ℚ) / d = i ↔ u % d = 0 ∧ i = (u / d : Nat) := by
  have hnonneg : (0 : ℚ) ≤ (u : ℚ) / d := div_nonneg (Nat.cast_nonneg u) (Nat.cast_nonneg d)
  constructor
  · intro h
    have hi : 0 ≤ i := Int.cast_nonneg_iff.1 (h ▸ hnonneg)
    obtain ⟨k, rfl⟩ := Int.eq_ofNat_of_zero_le hi
    rw [Int.cast_natCast, div_eq_natCast_iff u hd] at h
    exact ⟨h.1, congrArg Int.ofNat h.2⟩
  · rintro ⟨hmod, rfl⟩
    rw [Int.cast_natCast]
    exact (div_eq_natCast_iff u hd _).2 ⟨hmod, rfl⟩

theorem Binary64.integer?_eq_some_iff (x : Binary64) (i : Int) :
    x.integer? = some i ↔ x.value? = some (i : ℚ) := by
  cases x with
  | nan => simp [integer?, value?]
  | infinite negative => simp [integer?, value?]
  | finite negative rank =>
    have hdiv := div_eq_intCast_iff (units rank) unitsPerOne_pos
    simp only [integer?, value?, truncate, Option.some.injEq, Option.ite_none_right_eq_some]
    cases negative with
    | false =>
      simp only [Bool.false_eq_true, if_false]
      rw [hdiv i, eq_comm (a := i)]
    | true =>
      simp only [if_true]
      have hneg : ∀ q : ℚ, -q = i ↔ q = (-i : Int) := fun q => by
        rw [Int.cast_neg, neg_eq_iff_eq_neg]
      rw [hneg, hdiv (-i), neg_eq_iff_eq_neg, eq_comm (a := -i)]

theorem Scalar.integer?_eq_some_iff (s : Scalar) (i : Int) :
    s.integer? = some i ↔ s.value? = some (i : ℚ) := by
  cases s with
  | null => simp [integer?, value?]
  | bool b =>
    have hcast : ((b.toNat : Int) : ℚ) = (b.toNat : ℚ) := Int.cast_natCast _
    rw [integer?, value?, Option.some.injEq, Option.some.injEq, ← hcast, Rat.intCast_inj]
  | int n => rw [integer?, value?, Option.some.injEq, Option.some.injEq, Rat.intCast_inj]
  | float x => exact x.integer?_eq_some_iff i
  | text t => simp [integer?, value?]

end QueryTemplate
