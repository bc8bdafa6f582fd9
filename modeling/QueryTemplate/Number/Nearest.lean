/-!
# Rounding a quotient

The integer nearest to a quotient of natural numbers, a half going to the even neighbour. All
rounding of the library is this one function on a suitable grid.
-/

namespace QueryTemplate

/-- The integer nearest to `num / den`; a half goes to the even neighbour. -/
def nearest (num den : Nat) : Nat :=
  let q := num / den
  let r := num % den
  if 2 * r < den then q
  else if 2 * r = den then q + q % 2
  else q + 1

theorem nearest_close (num : Nat) {den : Nat} (h : 0 < den) :
    2 * num ≤ (2 * nearest num den + 1) * den ∧ 2 * nearest num den * den ≤ 2 * num + den := by
  have hd : num / den * den + num % den = num := Nat.div_add_mod' num den
  have hr : num % den < den := Nat.mod_lt _ h
  simp only [nearest]
  generalize num / den = q at *
  generalize num % den = r at *
  have h1 : 2 * q * den = 2 * (q * den) := Nat.mul_assoc ..
  have h2 : (2 * q + 1) * den = 2 * (q * den) + den := by rw [Nat.add_mul, h1, Nat.one_mul]
  have h3 : 2 * (q + 1) * den = 2 * (q * den) + 2 * den := by rw [Nat.mul_add, Nat.add_mul, h1]
  have h4 : (2 * (q + 1) + 1) * den = 2 * (q * den) + 3 * den := by
    rw [Nat.add_mul, h3]
    omega
  split
  · omega
  · split
    · rcases Nat.mod_two_eq_zero_or_one q with hq | hq
      · simp only [hq, Nat.add_zero]
        omega
      · simp only [hq]
        omega
    · omega

end QueryTemplate
