import QueryTemplate.Proofs.Magnitude
import QueryTemplate.Proofs.NumeralGrammar

/-!
# What data count as

The number that a datum counts as (`Datum.counts_number`): the integer or the floating-point number
that it is, or that a text spells at its start, and 0 or 1 for the rest. A numeral spells an integer
when it has neither a decimal point nor the letter of an exponent (`Numeral.isInteger_iff`). Such a
numeral with too many digits is the only thing that is no number (`Datum.number_error_iff`), and an
integer of `overflowBound` or more the only number without a nearest floating-point number.
-/

namespace QueryTemplate

/-! ## Numerals -/

namespace Numeral

def Unmarked (n : Numeral) : Prop := ∀ c ∈ n.text, c ∉ ['.', 'e', 'E']

theorem isInteger_iff {t : Text} {n : Numeral} (h : leading? t = some n) :
    n.isInteger ↔ n.Unmarked := by
  have hn := wellFormed_of_leading? h
  have hwhole := hn.mantissa.allDigits
  have hmark : ∀ e ∈ n.exponent, e.mark = 'e' ∨ e.mark = 'E' := fun e he => (hn.exponent e he).mark
  clear hn
  obtain ⟨sign, whole, fraction, exponent⟩ := n
  cases fraction with
  | some digits =>
    refine iff_of_false Bool.false_ne_true fun hn => hn '.' ?_ (by decide)
    simp [text]
  | none =>
    cases exponent with
    | some e =>
      have hcode : e.mark ∈ ['.', 'e', 'E'] := by
        rcases hmark e rfl with he | he <;> simp [he]
      refine iff_of_false Bool.false_ne_true fun hn => hn e.mark ?_ hcode
      simp [text, Exponent.text]
    | none =>
      refine iff_of_true rfl fun c hc hcode => ?_
      have hmem : c ∈ Sign.text sign ∨ c ∈ whole := by simpa [text] using hc
      simp only [List.mem_cons, List.not_mem_nil, or_false] at hcode
      rcases hmem with hc | hc
      · rcases sign with _ | _ | _
        · cases hc
        · obtain rfl := List.mem_singleton.1 hc
          simp [Sign.char] at hcode
        · obtain rfl := List.mem_singleton.1 hc
          simp [Sign.char] at hcode
      · have hdigit := hwhole c hc
        rcases hcode with rfl | rfl | rfl <;> exact absurd hdigit (by decide)

variable {t : Text} {n : Numeral}

theorem number_of_short (h : leading? t = some n) (hn : n.Unmarked)
    (hlength : n.whole.length ≤ digitLimit) :
    n.number = .ok (.int (Sign.apply n.sign (digitsValue n.whole))) := by
  rw [number, if_pos ((isInteger_iff h).2 hn), if_pos hlength]

theorem number_of_long (h : leading? t = some n) (hn : n.Unmarked)
    (hlength : digitLimit < n.whole.length) :
    n.number = .error (.unreadableInteger n.whole.length) := by
  rw [number, if_pos ((isInteger_iff h).2 hn), if_neg (Nat.not_le_of_lt hlength)]

theorem number_of_marked (h : leading? t = some n) (hn : ¬n.Unmarked) :
    ∃ x, n.number = .ok (.float x) :=
  ⟨_, if_neg fun hinteger => hn ((isInteger_iff h).1 hinteger)⟩

end Numeral

/-! ## Numbers -/

namespace Number

def finite? : Binary64 → Except BuildError Binary64
  | .infinite _ => .error .integerTooLarge
  | x => .ok x

theorem finite?_error_iff (x : Binary64) (e : BuildError) :
    finite? x = .error e ↔ (∃ negative, x = .infinite negative) ∧ e = .integerTooLarge := by
  cases x with
  | infinite negative => simp [finite?, eq_comm]
  | nan => simp [finite?]
  | finite negative rank => simp [finite?]

def nearestUnder (round : Int → Binary64) : Number → Except BuildError Binary64
  | .int n => finite? (round n)
  | .float x => .ok x

/-- The rounding is a variable here, as comparing the two sides must not evaluate it. -/
theorem toBinary64_eq {round : Int → Binary64} (h : round = Binary64.ofInt) (x : Number) :
    x.toBinary64 = nearestUnder round x := by
  unfold toBinary64
  rw [← h]
  cases x with
  | int n => rfl
  | float x => rfl

theorem toBinary64_error_iff (x : Number) (e : BuildError) :
    x.toBinary64 = .error e ↔
      ∃ i, x = .int i ∧ Binary64.overflowBound ≤ i.natAbs ∧ e = .integerTooLarge := by
  rw [toBinary64_eq rfl]
  cases x with
  | int n =>
    rw [nearestUnder, finite?_error_iff, Binary64.ofInt_eq_infinite_iff]
    constructor
    · exact fun h => ⟨n, rfl, h⟩
    · rintro ⟨_, hn, h⟩
      rwa [int.inj hn]
  | float x => simp [nearestUnder]

end Number

namespace Datum

def scalars : Datum → List Scalar
  | scalar s => [s]
  | sequence items => items
  | mapping entries => entries.map Prod.snd

theorem number_text {t : Text} {n : Numeral} (h : Numeral.leading? t = some n) :
    (scalar (.text t)).number = n.number := by
  rw [number, h]

/-- What a datum counts as: the integer that it is, or that is spelled at its start, a
floating-point number, or else 0 or 1. -/
inductive Counts : Datum → Except BuildError Number → Prop where
  | int (i : Int) : Counts (.scalar (.int i)) (.ok (.int i))
  | short {t : Text} {n : Numeral} (hn : Numeral.leading? t = some n) (hu : n.Unmarked)
    (hlength : n.whole.length ≤ digitLimit) :
    Counts (.scalar (.text t)) (.ok (.int (Sign.apply n.sign (digitsValue n.whole))))
  | long {t : Text} {n : Numeral} (hn : Numeral.leading? t = some n) (hu : n.Unmarked)
    (hlength : digitLimit < n.whole.length) :
    Counts (.scalar (.text t)) (.error (.unreadableInteger n.whole.length))
  | float {d : Datum} (x : Binary64) : Counts d (.ok (.float x))
  | bool {d : Datum} (b : Bool) : Counts d (.ok (.int b.toNat))

theorem counts_number (d : Datum) : Counts d d.number := by
  cases d with
  | scalar s =>
    cases s with
    | null => exact .bool false
    | bool b => exact .bool b
    | int i => exact .int i
    | float x => exact .float x
    | text t =>
      cases hn : Numeral.leading? t with
      | none =>
        rw [number, hn]
        exact .bool false
      | some n =>
        rw [number_text hn]
        by_cases hu : n.Unmarked
        · rcases Nat.lt_or_ge digitLimit n.whole.length with hlength | hlength
          · rw [n.number_of_long hn hu hlength]
            exact .long hn hu hlength
          · rw [n.number_of_short hn hu hlength]
            exact .short hn hu hlength
        · obtain ⟨x, hx⟩ := n.number_of_marked hn hu
          rw [hx]
          exact .float x
  | sequence items => exact .bool _
  | mapping entries => exact .bool _

theorem number_error_iff (d : Datum) (e : BuildError) :
    d.number = .error e ↔ ∃ t n, d = .scalar (.text t) ∧ Numeral.leading? t = some n ∧
      n.Unmarked ∧ digitLimit < n.whole.length ∧ e = .unreadableInteger n.whole.length := by
  constructor
  · intro h
    have hcounts := d.counts_number
    rw [h] at hcounts
    cases hcounts with
    | long hn hu hlength => exact ⟨_, _, rfl, hn, hu, hlength, rfl⟩
  · rintro ⟨t, n, rfl, hn, hu, hlength, rfl⟩
    rw [number_text hn, n.number_of_long hn hu hlength]

theorem number_eq_int_iff (d : Datum) {i : Int} (hi : Binary64.overflowBound ≤ i.natAbs) :
    d.number = .ok (.int i) ↔ d = .scalar (.int i) ∨
      ∃ t n, d = .scalar (.text t) ∧ Numeral.leading? t = some n ∧ n.Unmarked ∧
        n.whole.length ≤ digitLimit ∧ i = Sign.apply n.sign (digitsValue n.whole) := by
  constructor
  · intro h
    have hcounts := d.counts_number
    rw [h] at hcounts
    cases hcounts with
    | int i => exact .inl rfl
    | short hn hu hlength => exact .inr ⟨_, _, rfl, hn, hu, hlength, rfl⟩
    | bool b =>
      rw [Int.natAbs_natCast] at hi
      have hb := b.toNat_le
      have hone := Binary64.one_lt_overflowBound
      omega
  · rintro (rfl | ⟨t, n, rfl, hn, hu, hlength, rfl⟩)
    · rfl
    · rw [number_text hn, n.number_of_short hn hu hlength]

theorem exists_integerText {d : Datum} {x : Number} (hd : ∀ s ∈ d.scalars, s.Writable)
    (h : d.number = .ok x) : ∃ t, integerText x.toInt = .ok t := by
  suffices hlt : x.toInt.natAbs < 10 ^ digitLimit from ⟨_, integerText_of_lt hlt⟩
  have hcounts := d.counts_number
  rw [h] at hcounts
  cases hcounts with
  | int i =>
    have hi := hd _ (List.mem_singleton.2 rfl)
    rwa [Scalar.writable_int_iff, Text.length_ofNat_le_digitLimit] at hi
  | short hn hu hlength =>
    rw [Number.toInt, Sign.natAbs_apply]
    exact Nat.lt_of_lt_of_le (digitsValue_lt _) (Nat.pow_le_pow_right (by decide) hlength)
  | float y => exact y.natAbs_truncate_lt
  | bool b =>
    rw [Number.toInt, Int.natAbs_natCast]
    exact Nat.lt_of_le_of_lt b.toNat_le (Nat.one_lt_pow (by decide) (by decide))

theorem toBinary64_error_iff (d : Datum) (e : BuildError) :
    d.toBinary64 = .error e ↔ d.number = .error e ∨
      ∃ i, d.number = .ok (.int i) ∧ Binary64.overflowBound ≤ i.natAbs ∧ e = .integerTooLarge := by
  rw [toBinary64]
  cases d.number with
  | error e' => simp [Except.bind]
  | ok x =>
    rw [Except.bind, Number.toBinary64_error_iff]
    simp

end Datum

end QueryTemplate
