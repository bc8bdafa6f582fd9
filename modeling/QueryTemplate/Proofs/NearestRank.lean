import Mathlib.Algebra.Order.Field.Rat
import Mathlib.Algebra.Order.Ring.Abs
import Mathlib.Tactic.FieldSimp
import Mathlib.Tactic.Linarith
import Mathlib.Tactic.Ring
import QueryTemplate.Number.Binary64

/-!
# The nearest rank

The values of the ranks grow, and a step from one rank to the next is one spacing (`units_succ`).
So the rank nearest to a fraction is one of two neighbours, and rounding the quotient on their grid
finds it (`isNearestRank_nearestRank`): on a grid where the quotient has 53 binary digits the
integers are the ranks, up to and including the first one of the next grid. The bound of all finite
ranks is passed from half a spacing above the largest number on, since the tie there goes to the
even rank, which is that of infinity (`rankBound_le_iff`).
-/

namespace QueryTemplate

theorem cast_unitsPerOne_pos : (0 : ℚ) < unitsPerOne := Nat.cast_pos.2 unitsPerOne_pos

namespace Binary64

/-! ## Ranks in order -/

theorem significand_lt (rank : Nat) : significand rank < 2 ^ 53 := by
  rw [significand, scale, Nat.pow_eq]
  omega

/-- The next rank is the next integer on the same grid, or the least one of the next grid. -/
theorem scale_succ (rank : Nat) :
    scale (rank + 1) = scale rank ∧ significand (rank + 1) = significand rank + 1 ∨
      scale (rank + 1) = scale rank + 1 ∧ significand (rank + 1) = 2 ^ 52 ∧
        significand rank + 1 = 2 ^ 53 := by
  simp only [significand, scale, Nat.pow_eq]
  omega

theorem units_succ (rank : Nat) : units (rank + 1) = units rank + 2 ^ scale rank := by
  have hadd : significand rank * 2 ^ scale rank + 2 ^ scale rank
      = (significand rank + 1) * 2 ^ scale rank := (Nat.succ_mul _ _).symm
  rw [units, units, Nat.pow_eq, Nat.pow_eq, hadd]
  rcases scale_succ rank with ⟨hscale, hnext⟩ | ⟨hscale, hnext, hlast⟩
  · rw [hscale, hnext]
  · rw [hscale, hnext, hlast]
    ring

theorem units_strictMono : StrictMono units := by
  apply strictMono_nat_of_lt_succ
  intro rank
  rw [units_succ]
  exact Nat.lt_add_of_pos_right (Nat.two_pow_pos _)

theorem cast_units_lt {rank other : Nat} (h : rank < other) : (units rank : ℚ) < units other :=
  Nat.cast_lt.2 (units_strictMono h)

theorem cast_units_le {rank other : Nat} (h : rank ≤ other) : (units rank : ℚ) ≤ units other :=
  Nat.cast_le.2 (units_strictMono.monotone h)

theorem units_succ_le (rank : Nat) : units (rank + 1) ≤ 2 ^ 53 * 2 ^ scale rank := by
  rw [units_succ, units, Nat.pow_eq, ← Nat.succ_mul]
  exact Nat.mul_le_mul_right _ (significand_lt rank)

theorem units_zero : units 0 = 0 := by
  rw [units, significand, Nat.zero_sub, Nat.zero_mul]

theorem units_pos {rank : Nat} (h : rank ≠ 0) : 0 < units rank :=
  units_zero ▸ units_strictMono (Nat.pos_of_ne_zero h)

theorem scale_grid {s m : Nat} (hm : m < 2 ^ 53) (hm' : 2 ^ 52 ≤ m ∨ s = 0) :
    scale (s * 2 ^ 52 + m) = s := by
  rw [scale, Nat.pow_eq]
  omega

theorem units_grid {s m : Nat} (hm : m ≤ 2 ^ 53) (hm' : 2 ^ 52 ≤ m ∨ s = 0) :
    units (s * 2 ^ 52 + m) = m * 2 ^ s := by
  rcases Nat.lt_or_eq_of_le hm with hlt | rfl
  · rw [units, significand, scale_grid hlt hm', Nat.pow_eq, Nat.pow_eq, Nat.add_sub_cancel_left]
  · have hscale : scale (s * 2 ^ 52 + 2 ^ 53) = s + 1 := by
      rw [scale, Nat.pow_eq]
      omega
    have hsignificand : significand (s * 2 ^ 52 + 2 ^ 53) = 2 ^ 52 := by
      rw [significand, hscale, Nat.pow_eq]
      omega
    rw [units, hscale, hsignificand, Nat.pow_eq]
    ring

theorem units_le_mul_abs_sub {rank other : Nat} (h : rank ≠ other) :
    (units rank : ℚ) ≤ 2 ^ 53 * |(units rank : ℚ) - units other| := by
  have hstep : ∀ r, (units (r + 1) : ℚ) = units r + 2 ^ scale r := fun r => by
    exact_mod_cast units_succ r
  have hle : ∀ r, (units (r + 1) : ℚ) ≤ 2 ^ 53 * 2 ^ scale r := fun r => by
    exact_mod_cast units_succ_le r
  -- the spacing is the one above the lower of the two
  rcases Nat.lt_or_gt_of_ne h with hlt | hgt
  · have hself := cast_units_le rank.le_succ
    have hother := cast_units_le (Nat.succ_le_of_lt hlt)
    rw [abs_sub_comm, abs_of_nonneg (by linarith)]
    linarith [hstep rank, hle rank]
  · obtain ⟨k, rfl⟩ := Nat.exists_eq_add_one.2 (Nat.zero_lt_of_lt hgt)
    have hself := cast_units_le k.le_succ
    have hother := cast_units_le (Nat.le_of_lt_succ hgt)
    rw [abs_of_nonneg (by linarith)]
    linarith [hstep k, hle k]

/-! ## The nearest rank -/

/-- The rank nearest to a number of units; of two equally near ones the even rank. -/
structure IsNearestRank (q : ℚ) (rank : Nat) : Prop where
  le (other : Nat) : |q - units rank| ≤ |q - units other|
  even (other : Nat) : other ≠ rank → |q - units other| = |q - units rank| → rank % 2 = 0

variable {q : ℚ} {rank : Nat}

theorem sub_units_le {other : Nat} (hq : (units rank : ℚ) ≤ q) (h : other ≤ rank) :
    q - units rank ≤ |q - units other| := by
  have hle : (units other : ℚ) ≤ units rank := cast_units_le h
  rw [abs_of_nonneg (by linarith)]
  linarith

theorem units_sub_le {other : Nat} (hq : q ≤ (units rank : ℚ)) (h : rank ≤ other) :
    units rank - q ≤ |q - units other| := by
  have hle : (units rank : ℚ) ≤ units other := cast_units_le h
  rw [abs_of_nonpos (by linarith)]
  linarith

theorem isNearestRank_lower (hlower : (units rank : ℚ) ≤ q) (hupper : q ≤ units (rank + 1))
    (hle : q - units rank ≤ units (rank + 1) - q)
    (heven : q - units rank = units (rank + 1) - q → rank % 2 = 0) : IsNearestRank q rank := by
  constructor
  · intro other
    rw [abs_of_nonneg (sub_nonneg.2 hlower)]
    rcases Nat.lt_or_ge rank other with h | h
    · exact hle.trans (units_sub_le hupper h)
    · exact sub_units_le hlower h
  · intro other hne heq
    rw [abs_of_nonneg (sub_nonneg.2 hlower)] at heq
    rcases Nat.lt_or_ge rank other with h | h
    · exact heven (le_antisymm hle (heq ▸ units_sub_le hupper h))
    · have hlt : (units other : ℚ) < units rank := cast_units_lt (Nat.lt_of_le_of_ne h hne)
      rw [abs_of_nonneg (by linarith)] at heq
      linarith

theorem isNearestRank_upper (hlower : (units rank : ℚ) ≤ q) (hupper : q ≤ units (rank + 1))
    (hle : units (rank + 1) - q ≤ q - units rank)
    (heven : q - units rank = units (rank + 1) - q → (rank + 1) % 2 = 0) :
    IsNearestRank q (rank + 1) := by
  constructor
  · intro other
    rw [abs_of_nonpos (sub_nonpos.2 hupper), neg_sub]
    rcases Nat.lt_or_ge rank other with h | h
    · exact units_sub_le hupper h
    · exact hle.trans (sub_units_le hlower h)
  · intro other hne heq
    rw [abs_of_nonpos (sub_nonpos.2 hupper), neg_sub] at heq
    rcases Nat.lt_or_ge rank other with h | h
    · have hlt : (units (rank + 1) : ℚ) < units other :=
        cast_units_lt (Nat.lt_of_le_of_ne h hne.symm)
      rw [abs_of_nonpos (by linarith)] at heq
      linarith
    · exact heven (le_antisymm (heq ▸ sub_units_le hlower h) hle)

/-- Between two neighbours, `r / den` above one and `(d - r) / den` below the other, half of `d`
decides. -/
theorem isNearestRank_between {den d r : Nat} (hden : 0 < den) (hr : r < d)
    (hbelow : q - units rank = (r : ℚ) / den)
    (habove : units (rank + 1) - q = ((d - r : Nat) : ℚ) / den) :
    IsNearestRank q
      (if 2 * r < d then rank else if 2 * r = d then rank + rank % 2 else rank + 1) := by
  have hden' : (0 : ℚ) < den := Nat.cast_pos.2 hden
  have hlower : (units rank : ℚ) ≤ q :=
    sub_nonneg.1 (hbelow ▸ div_nonneg (Nat.cast_nonneg r) hden'.le)
  have hupper : q ≤ units (rank + 1) :=
    sub_nonneg.1 (habove ▸ div_nonneg (Nat.cast_nonneg _) hden'.le)
  have hle : ∀ a b : Nat, a ≤ b → (a : ℚ) / den ≤ b / den := fun a b hab =>
    div_le_div_of_nonneg_right (Nat.cast_le.2 hab) hden'.le
  have htie : q - units rank = units (rank + 1) - q → 2 * r = d := by
    intro h
    rw [hbelow, habove, div_left_inj' hden'.ne', Nat.cast_inj] at h
    omega
  split
  · refine isNearestRank_lower hlower hupper ?_ fun h => absurd (htie h) (by omega)
    rw [hbelow, habove]
    exact hle _ _ (by omega)
  · split
    · have hboth : q - units rank = units (rank + 1) - q := by
        rw [hbelow, habove, show d - r = r by omega]
      rcases Nat.mod_two_eq_zero_or_one rank with h | h
      · rw [h, Nat.add_zero]
        exact isNearestRank_lower hlower hupper hboth.le fun _ => h
      · rw [h]
        exact isNearestRank_upper hlower hupper hboth.ge fun _ => by omega
    · refine isNearestRank_upper hlower hupper ?_ fun h => absurd (htie h) (by omega)
      rw [hbelow, habove]
      exact hle _ _ (by omega)

theorem isNearestRank_grid {fine den s : Nat} (hden : 0 < den) (hm : fine / (den * 2 ^ s) < 2 ^ 53)
    (hm' : 2 ^ 52 ≤ fine / (den * 2 ^ s) ∨ s = 0) :
    IsNearestRank ((fine : ℚ) / den) (s * 2 ^ 52 + nearest fine (den * 2 ^ s)) := by
  have hden' : (0 : ℚ) < den := Nat.cast_pos.2 hden
  have hdiv : fine / (den * 2 ^ s) * (den * 2 ^ s) + fine % (den * 2 ^ s) = fine :=
    Nat.div_add_mod' fine _
  have hr : fine % (den * 2 ^ s) < den * 2 ^ s :=
    Nat.mod_lt _ (Nat.mul_pos hden (Nat.two_pow_pos s))
  simp only [nearest]
  generalize fine / (den * 2 ^ s) = m at *
  generalize fine % (den * 2 ^ s) = r at *
  -- the distances from the two neighbours
  have hbelow : (fine : ℚ) / den - units (s * 2 ^ 52 + m) = r / den := by
    rw [units_grid hm.le hm', ← hdiv]
    push_cast
    field_simp
    ring
  have habove : (units (s * 2 ^ 52 + m + 1) : ℚ) - fine / den
      = ((den * 2 ^ s - r : Nat) : ℚ) / den := by
    rw [Nat.add_assoc, units_grid hm (hm'.imp_left (by omega)), ← hdiv, Nat.cast_sub hr.le]
    push_cast
    field_simp
    ring
  have hrank := isNearestRank_between hden hr hbelow habove
  have hparity : (s * 2 ^ 52 + m) % 2 = m % 2 := by omega
  rw [hparity] at hrank
  split
  · rename_i h
    rwa [if_pos h] at hrank
  · rename_i h
    rw [if_neg h] at hrank
    split
    · rename_i htie
      rwa [if_pos htie, Nat.add_assoc] at hrank
    · rename_i htie
      rwa [if_neg htie, Nat.add_assoc] at hrank

/-- **Rounding a fraction finds the nearest rank.** -/
theorem isNearestRank_nearestRank (num : Nat) {den : Nat} (hden : 0 < den) :
    IsNearestRank ((num : ℚ) / den * unitsPerOne) (nearestRank num den) := by
  have hunits : (num : ℚ) / den * unitsPerOne = (num * unitsPerOne : Nat) / den := by
    push_cast
    ring
  simp only [hunits, nearestRank, Nat.pow_eq]
  generalize num * unitsPerOne = fine
  -- the spacing is chosen from the order of magnitude of the quotient
  refine isNearestRank_grid hden ?_ ?_
  · rw [← Nat.div_div_eq_div_mul]
    refine Nat.div_lt_of_lt_mul ?_
    rw [← Nat.pow_add]
    refine Nat.lt_of_lt_of_le Nat.lt_log2_self (Nat.pow_le_pow_right (by decide) (by omega))
  · rcases Nat.lt_or_ge (Nat.log2 (fine / den)) 52 with h | h
    · exact .inr (by omega)
    · left
      have hne : fine / den ≠ 0 := by
        intro hzero
        rw [hzero] at h
        exact absurd h (by decide)
      rw [← Nat.div_div_eq_div_mul, Nat.le_div_iff_mul_le (Nat.two_pow_pos _), ← Nat.pow_add,
        Nat.add_sub_cancel' h]
      exact Nat.log2_self_le hne

theorem isNearestRank_zero (hq : 0 ≤ q) (hq' : 2 * q ≤ 1) : IsNearestRank q 0 := by
  have hzero : (units 0 : ℚ) = 0 := by rw [units_zero, Nat.cast_zero]
  have hone : (units (0 + 1) : ℚ) = 1 := by
    have h : units (0 + 1) = 1 := by decide
    rw [h, Nat.cast_one]
  refine isNearestRank_lower ?_ ?_ ?_ fun _ => rfl <;> linarith

/-! ## Overflow -/

/-- Half a spacing above the largest floating-point number. -/
def overflowBound : Nat := 2 ^ 1024 - 2 ^ 970

theorem one_lt_overflowBound : 1 < overflowBound := by decide +kernel

theorem overflowBound_le_ten_pow {k : Nat} (hk : 310 ≤ k) : overflowBound ≤ 10 ^ k := by
  have hbound : overflowBound ≤ 10 ^ 310 := by decide +kernel
  generalize 310 = j at hk hbound
  exact hbound.trans (Nat.pow_le_pow_right (by decide) hk)

/-- The bound lies in the middle between the last rank, which is odd, and the one that infinity
would have. -/
theorem exists_last :
    ∃ last, rankBound = last + 1 ∧ last % 2 = 1 ∧
      units last + units (last + 1) = 2 * (overflowBound * unitsPerOne) :=
  ⟨rankBound - 1, by decide +kernel, by decide +kernel, by decide +kernel⟩

theorem units_lt {rank : Nat} (h : rank < rankBound) : units rank < overflowBound * unitsPerOne := by
  obtain ⟨last, hlast, -, hmiddle⟩ := exists_last
  have hstep : units last < units (last + 1) := units_strictMono last.lt_succ_self
  have hle := units_strictMono.monotone (show rank ≤ last by omega)
  generalize overflowBound * unitsPerOne = bound at *
  omega

/-- A number of units has no finite rank from the bound on: the tie there goes to the even rank,
which is that of infinity. -/
theorem rankBound_le_iff (h : IsNearestRank q rank) :
    rankBound ≤ rank ↔ (overflowBound * unitsPerOne : ℚ) ≤ q := by
  obtain ⟨last, hlast, hodd, hmiddle⟩ := exists_last
  replace hmiddle : (units last + units (last + 1) : ℚ) = 2 * (overflowBound * unitsPerOne) := by
    exact_mod_cast hmiddle
  have hstep : (units last : ℚ) < units (last + 1) := cast_units_lt last.lt_succ_self
  generalize (overflowBound * unitsPerOne : ℚ) = bound at *
  rw [hlast]
  constructor
  · intro hrank
    by_contra hq
    have hfar := (units_sub_le (by linarith) hrank).trans (h.le last)
    rcases abs_cases (q - units last) with ⟨habs, -⟩ | ⟨habs, -⟩ <;> linarith
  · intro hq
    by_contra hrank
    have hfar := h.le (last + 1)
    have hrank' : q - units rank ≤ |q - units rank| := le_abs_self _
    rcases Nat.lt_or_eq_of_le (show rank ≤ last by omega) with hlt | rfl
    · have hunits : (units rank : ℚ) < units last := cast_units_lt hlt
      rcases abs_cases (q - units (last + 1)) with ⟨habs, -⟩ | ⟨habs, -⟩ <;> linarith
    · have heq : |q - units (rank + 1)| = |q - units rank| := by
        refine le_antisymm ?_ hfar
        rcases abs_cases (q - units (rank + 1)) with ⟨habs, -⟩ | ⟨habs, -⟩ <;> linarith
      have heven := h.even (rank + 1) (by omega) heq
      omega

end Binary64

end QueryTemplate
