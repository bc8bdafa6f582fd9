import Mathlib.Data.List.Induction
import Mathlib.Tactic.Ring
import QueryTemplate.Proofs.NearestRank
import QueryTemplate.Proofs.NumberText

/-!
# Magnitudes

How large the integers are that a conversion meets. An integer is beyond all floating-point numbers
from half a spacing above the largest one on (`ofInt_eq_infinite_iff`). The other way, the integer
part of a floating-point number, and an integer that is read from few digits, can always be written.
-/

namespace QueryTemplate

namespace Binary64

/-! ## Integers beyond all floating-point numbers -/

theorem rankBound_le_nearestRank_iff (n : Nat) :
    rankBound ≤ nearestRank n 1 ↔ overflowBound ≤ n := by
  rw [rankBound_le_iff (isNearestRank_nearestRank n Nat.one_pos), Nat.cast_one, div_one,
    mul_le_mul_iff_of_pos_right cast_unitsPerOne_pos, Nat.cast_le]

theorem ofInt_eq_infinite_iff (n : Int) :
    (∃ negative, ofInt n = .infinite negative) ↔ overflowBound ≤ n.natAbs := by
  rw [← rankBound_le_nearestRank_iff, ofInt, ofRatio, ofRank]
  split
  · rename_i h
    simp [h]
  · rename_i h
    exact ⟨fun _ => Nat.le_of_not_lt h, fun _ => ⟨_, rfl⟩⟩

/-! ## Integers that can be written -/

theorem natAbs_truncate_lt (x : Binary64) : x.truncate.natAbs < 10 ^ digitLimit := by
  cases x with
  | nan => exact Nat.pow_pos (by decide)
  | infinite negative => exact Nat.pow_pos (by decide)
  | finite negative rank =>
    have habs : (truncate (.finite negative rank)).natAbs = units rank / unitsPerOne := by
      simp only [truncate]
      split
      · rw [Int.natAbs_neg, Int.natAbs_natCast]
      · rw [Int.natAbs_natCast]
    have hlt : units rank / unitsPerOne < overflowBound :=
      Nat.div_lt_of_lt_mul (Nat.mul_comm _ _ ▸ units_lt rank.isLt)
    rw [habs]
    exact Nat.lt_of_lt_of_le hlt (overflowBound_le_ten_pow (by decide))

end Binary64

theorem Text.length_ofNat_le_digitLimit (n : Nat) :
    (ofNat n).length ≤ digitLimit ↔ n < 10 ^ digitLimit :=
  Nat.length_toDigits_le_iff (by decide) (by decide)

theorem digitsValue_concat (digits : Text) (c : Char) :
    digitsValue (digits ++ [c]) = 10 * digitsValue digits + digitValue c := by
  rw [digitsValue, List.foldl_append]
  rfl

theorem digitsValue_append (digits digits' : Text) :
    digitsValue (digits ++ digits') =
      digitsValue digits * 10 ^ digits'.length + digitsValue digits' := by
  induction digits' using List.reverseRecOn with
  | nil => simp [digitsValue]
  | append_singleton digits' c ih =>
    rw [← List.append_assoc, digitsValue_concat, digitsValue_concat, ih, List.length_append,
      List.length_singleton, Nat.pow_succ]
    ring

theorem digitsValue_lt (digits : Text) : digitsValue digits < 10 ^ digits.length := by
  induction digits using List.reverseRecOn with
  | nil => decide
  | append_singleton digits c ih =>
    have hc := digitValue_lt c
    rw [digitsValue_concat, List.length_append, List.length_singleton, Nat.pow_succ']
    omega

theorem digitsValue_eq_ofDigitChars {digits : Text} (h : ∀ c ∈ digits, c.isDigit) :
    digitsValue digits = Nat.ofDigitChars 10 digits 0 := by
  induction digits using List.reverseRecOn with
  | nil => rfl
  | append_singleton digits c ih =>
    rw [List.forall_mem_append, List.forall_mem_singleton] at h
    rw [digitsValue_concat, ih h.1, Nat.ofDigitChars_append, Nat.ofDigitChars_cons,
      Nat.ofDigitChars_nil, digitValue, digitValue?_of_isDigit h.2]
    rfl

theorem digitsValue_ofNat (n : Nat) : digitsValue (Text.ofNat n) = n := by
  rw [digitsValue_eq_ofDigitChars fun c => Text.isDigit_of_mem_ofNat, Text.ofDigitChars_ofNat]

theorem Sign.natAbs_apply (sign : Option Sign) (n : Nat) : (Sign.apply sign n).natAbs = n := by
  rw [Sign.apply]
  split
  · rw [Int.natAbs_neg, Int.natAbs_natCast]
  · exact Int.natAbs_natCast n

theorem Sign.apply_natAbs {sign : Option Sign} {n : Int} (h : sign = some .minus ↔ n < 0) :
    Sign.apply sign n.natAbs = n := by
  rw [Sign.apply]
  split
  · rename_i hsign
    rw [Int.ofNat_natAbs_of_nonpos (Int.le_of_lt (h.1 hsign)), Int.neg_neg]
  · rename_i hsign
    exact Int.natAbs_of_nonneg (Int.not_lt.1 fun hn => hsign (h.2 hn))

theorem integerText_of_lt {n : Int} (h : n.natAbs < 10 ^ digitLimit) :
    integerText n = .ok (Text.ofInt n) :=
  if_pos ((Text.length_ofNat_le_digitLimit _).2 h)

end QueryTemplate
