import Mathlib.Data.Rat.Floor
import QueryTemplate.Proofs.LeadingNumber

/-!
# One number behind two conversions

A datum as an integer and as a floating-point number (`Datum.toInt_and_toBinary64`). When it is an
integer, or begins with a numeral that spells one, the first is this integer and the second the
number nearest to it, which is the integer itself up to `2 ^ 53`. In all other cases the first is
the second without its fraction.
-/

namespace QueryTemplate

/-! ## Integer parts -/

def integerPart (v : ℚ) : Int := if 0 ≤ v then ⌊v⌋ else ⌈v⌉

theorem integerPart_intCast (i : Int) : integerPart i = i := by
  rw [integerPart]
  split
  · exact Int.floor_intCast i
  · exact Int.ceil_intCast i

theorem integerPart_signed (negative : Bool) (u d : Nat) :
    integerPart (signed negative (u / d)) =
      if negative then -((u / d : Nat) : Int) else (u / d : Nat) := by
  have hnonneg : (0 : ℚ) ≤ u / d := div_nonneg (Nat.cast_nonneg u) (Nat.cast_nonneg d)
  have hfloor : ⌊(u : ℚ) / d⌋ = (u / d : Nat) := by
    rw [Rat.floor_natCast_div_natCast, Int.natCast_div]
  cases negative with
  | false => exact (if_pos hnonneg).trans hfloor
  | true =>
    rw [if_pos rfl, ← hfloor, integerPart, signed, if_pos rfl, ← Int.ceil_neg]
    split
    · rename_i hpos
      have hzero : (u : ℚ) / d = 0 := le_antisymm (neg_nonneg.1 hpos) hnonneg
      rw [hzero, neg_zero, Int.floor_zero, Int.ceil_zero]
    · rfl

theorem Binary64.truncate_eq (x : Binary64) : x.truncate = x.value?.elim 0 integerPart := by
  cases x with
  | nan => rfl
  | infinite negative => rfl
  | finite negative rank =>
    rw [value?_finite, Option.elim_some, integerPart_signed]
    rfl

/-! ## Integers as floating-point numbers -/

theorem Number.toBinary64_int {i : Int} {x : Binary64} (h : (int i).toBinary64 = .ok x) :
    x = .ofInt i ∧ ∀ negative, x ≠ .infinite negative := by
  rw [toBinary64_eq rfl, nearestUnder] at h
  generalize Binary64.ofInt i = y at h ⊢
  cases y with
  | infinite negative => cases h
  | nan =>
    obtain rfl := Except.ok.inj h
    exact ⟨rfl, fun negative h => by cases h⟩
  | finite negative rank =>
    obtain rfl := Except.ok.inj h
    exact ⟨rfl, fun negative h => by cases h⟩

theorem Number.nearest_of_toBinary64 {i : Int} {x : Binary64} (h : (int i).toBinary64 = .ok x) :
    Binary64.RoundsTo i x ∧ (∃ v, x.value? = some v) ∧
      (i.natAbs ≤ 2 ^ 53 → x.value? = some (i : ℚ)) := by
  obtain ⟨rfl, hfinite⟩ := toBinary64_int h
  have hrounds := Binary64.roundsTo_ofInt i
  refine ⟨hrounds, ?_, fun hi => ?_⟩
  · generalize Binary64.ofInt i = x at hrounds hfinite
    cases hrounds with
    | finite hx => exact ⟨_, hx⟩
    | infinite => exact absurd rfl (hfinite _)
  · obtain ⟨y, hy⟩ := Binary64.exists_value?_eq hi
    exact hrounds.value?_self hy

namespace Datum

/-- A datum is an integer, or begins with a numeral that spells one. -/
inductive IsInteger : Datum → Int → Prop where
  | int (i : Int) : IsInteger (.scalar (.int i)) i
  | bool (b : Bool) : IsInteger (.scalar (.bool b)) b.toNat
  | text {t : Text} {n : Numeral} {i : Int} (hn : Numeral.leading? t = some n) (hu : n.Unmarked)
    (hi : (i : ℚ) = n.value) : IsInteger (.scalar (.text t)) i

theorem IsInteger.number {d : Datum} {i : Int} {x : Number} (h : d.IsInteger i)
    (hx : d.number = .ok x) : x = .int i := by
  cases h with
  | int i => exact (Except.ok.inj hx).symm
  | bool b => exact (Except.ok.inj hx).symm
  | text hn hu hi =>
    rw [number_text hn] at hx
    have hspells := Numeral.spells_number hn
    rw [hx] at hspells
    cases hspells with
    | int _ _ hi' => rw [Int.cast_injective (hi'.trans hi.symm)]
    | float hmarked => exact absurd hu hmarked

theorem number_of_not_isInteger {d : Datum} {x : Number} (h : ∀ i, ¬d.IsInteger i)
    (hx : d.number = .ok x) : (∃ y, x = .float y) ∨ ∃ b : Bool, x = .int b.toNat := by
  have hcounts := d.counts_number
  rw [hx] at hcounts
  cases hcounts with
  | int i => exact absurd (.int i) (h i)
  | short hn hu =>
    have hvalue := Numeral.value_of_isInteger ((Numeral.isInteger_iff hn).2 hu)
    exact absurd (.text hn hu hvalue.symm) (h _)
  | float y => exact .inl ⟨y, rfl⟩
  | bool b => exact .inr ⟨b, rfl⟩

/-- **Both conversions read the same number.** -/
theorem toInt_and_toBinary64 {d : Datum} {n : Int} {x : Binary64} (hn : d.toInt = .ok n)
    (hx : d.toBinary64 = .ok x) :
    (∀ i, d.IsInteger i → n = i ∧ Binary64.RoundsTo i x ∧ (∃ v, x.value? = some v) ∧
      (i.natAbs ≤ 2 ^ 53 → x.value? = some (i : ℚ))) ∧
    ((∀ i, ¬d.IsInteger i) → n = x.value?.elim 0 integerPart) := by
  rw [toInt] at hn
  rw [toBinary64] at hx
  cases hnumber : d.number with
  | error e =>
    rw [hnumber] at hn
    cases hn
  | ok number =>
    rw [hnumber] at hn hx
    obtain rfl : number.toInt = n := Except.ok.inj hn
    replace hx : number.toBinary64 = .ok x := hx
    refine ⟨fun i hi => ?_, fun hnot => ?_⟩
    · obtain rfl := hi.number hnumber
      exact ⟨rfl, Number.nearest_of_toBinary64 hx⟩
    · rcases number_of_not_isInteger hnot hnumber with ⟨y, rfl⟩ | ⟨b, rfl⟩
      · obtain rfl : y = x := Except.ok.inj hx
        exact y.truncate_eq
      · have hsmall : (b.toNat : Int).natAbs ≤ 2 ^ 53 := by
          rw [Int.natAbs_natCast]
          exact b.toNat_le.trans (by decide)
        obtain ⟨-, -, hexact⟩ := Number.nearest_of_toBinary64 hx
        rw [hexact hsmall, Option.elim_some, integerPart_intCast]
        rfl

/-- The least integer that is no floating-point number, which is a tie, and a negative fraction. -/
theorem toInt_and_toBinary64_tie :
    let x : Binary64 := .finite false ⟨1076 * 2 ^ 52, by decide⟩
    let y : Binary64 := .ofDecimal true 29 (-1)
    (scalar (.int (2 ^ 53 + 1))).toBinary64 = .ok x ∧ Binary64.RoundsTo (2 ^ 53 + 1 : Int) x ∧
      (scalar (.text ['-', '2', '.', '9', 'x'])).toBinary64 = .ok y ∧
      -2 = y.value?.elim 0 integerPart := by
  intro x y
  have hx : (scalar (.int (2 ^ 53 + 1))).toBinary64 = .ok x := by decide +kernel
  have hn : (scalar (.text ['-', '2', '.', '9', 'x'])).toInt = .ok (-2) := by decide +kernel
  have hy : (scalar (.text ['-', '2', '.', '9', 'x'])).toBinary64 = .ok y := by decide +kernel
  obtain ⟨hinteger, -⟩ := toInt_and_toBinary64 rfl hx
  obtain ⟨-, hfraction⟩ := toInt_and_toBinary64 hn hy
  refine ⟨hx, (hinteger _ (.int _)).2.1, hy, hfraction ?_⟩
  intro i hi
  cases hi with
  | text hnumeral hu =>
    have hread : Numeral.leading? ['-', '2', '.', '9', 'x']
        = some ⟨some .minus, ['2'], some ['9'], none⟩ := by decide
    obtain rfl := Option.some.inj (hnumeral.symm.trans hread)
    exact hu '.' (by decide) (by decide)

end Datum

end QueryTemplate
