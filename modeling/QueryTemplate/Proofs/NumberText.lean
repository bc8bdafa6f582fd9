import QueryTemplate.Query.Rendering

/-!
# Characters of numbers

The texts of integers and of floating-point numbers are made of digits, signs, points and the
letters of exponents, infinities and NaN (`ofNumber_literalText`), and they are not empty. So what
has a meaning of its own in a query does not occur in them.
-/

namespace QueryTemplate

namespace Text

/-- A digit, a sign, a point, or a letter of an exponent, of an infinity or of NaN. -/
def isNumberChar (c : Char) : Bool :=
  c.isDigit || ['+', '-', '.', 'E', 'I', 'N', 'F', 'A'].contains c

def OfNumber (t : Text) : Prop := ∀ c ∈ t, isNumberChar c

instance (t : Text) : Decidable (OfNumber t) := List.decidableBAll _ t

namespace OfNumber

variable {t t' : Text} {c : Char}

theorem not_mem (h : OfNumber t) (hc : isNumberChar c = false) : c ∉ t := by
  intro hmem
  rw [h c hmem] at hc
  cases hc

theorem append (h : OfNumber t) (h' : OfNumber t') : OfNumber (t ++ t') := by
  intro c hc
  rcases List.mem_append.1 hc with hc | hc
  · exact h c hc
  · exact h' c hc

theorem cons (hc : isNumberChar c) (h : OfNumber t) : OfNumber (c :: t) :=
  List.forall_mem_cons.2 ⟨hc, h⟩

theorem of_subset (h : OfNumber t) (hsub : t' ⊆ t) : OfNumber t' := fun c hc => h c (hsub hc)

end OfNumber

theorem ofNumber_ofNat (n : Nat) : OfNumber (ofNat n) := by
  intro c hc
  rw [isNumberChar, isDigit_of_mem_ofNat hc, Bool.true_or]

theorem ofNumber_ofInt (n : Int) : OfNumber (ofInt n) := by
  rw [ofInt]
  split
  · exact (ofNumber_ofNat _).cons (by decide)
  · exact ofNumber_ofNat _

theorem ofNumber_zeros (n : Nat) : OfNumber (List.replicate n '0') := by
  intro c hc
  rw [List.eq_of_mem_replicate hc]
  decide

end Text

open Text

theorem integerText_eq_ok_iff {n : Int} {t : Text} :
    integerText n = .ok t ↔ (ofNat n.natAbs).length ≤ digitLimit ∧ t = ofInt n := by
  rw [integerText]
  split
  · rename_i h
    simp [h, eq_comm]
  · rename_i h
    simp [h]

theorem ofNumber_integerText {n : Int} {t : Text} (h : integerText n = .ok t) : OfNumber t := by
  obtain ⟨-, rfl⟩ := integerText_eq_ok_iff.1 h
  exact ofNumber_ofInt n

theorem ofNumber_ofGrid (places : Int) (n : Nat) : OfNumber (Decimal.ofGrid places n).digits := by
  refine (ofNumber_ofNat n).of_subset fun c hc => ?_
  have hdrop := (List.dropWhile_sublist _).subset (List.mem_reverse.1 hc)
  exact List.mem_reverse.1 hdrop

namespace FloatStyle

variable {style : FloatStyle}

theorem ofNumber_exponentText (e : Int) : OfNumber (exponentText e) := by
  have hsign : isNumberChar (if e < 0 then '-' else '+') := by split <;> decide
  exact ((ofNumber_zeros _).append (ofNumber_ofNat _)).cons hsign

theorem ofNumber_decimalText {d : Decimal} (hmark : isNumberChar style.mark)
    (htail : OfNumber style.integerTail) (hd : OfNumber d.digits) :
    OfNumber (style.decimalText d) := by
  have htake : ∀ n, OfNumber (d.digits.take n) := fun n => hd.of_subset (List.take_subset n _)
  have hfraction : ∀ n, OfNumber ('.' :: d.digits.drop n) :=
    fun n => (hd.of_subset (List.drop_subset n _)).cons (by decide)
  rw [decimalText]
  split
  · split
    · exact (OfNumber.append (by decide) (ofNumber_zeros _)).append hd
    · rw [positional]
      refine ((htake _).append (ofNumber_zeros _)).append ?_
      split
      · exact htail
      · exact hfraction _
  · refine ((htake _).append ?_).append ((ofNumber_exponentText _).cons hmark)
    split
    · decide
    · exact hfraction _

end FloatStyle

theorem ofNumber_literalText (precision : Nat) (x : Binary64) :
    OfNumber (x.literalText precision) := by
  have hdecimal : ∀ d : Decimal, OfNumber d.digits →
      OfNumber ((FloatStyle.literal precision).decimalText d) :=
    fun d hd => FloatStyle.ofNumber_decimalText (show isNumberChar 'E' by decide)
      (show OfNumber [] by decide) hd
  cases x with
  | nan => exact show OfNumber ['N', 'A', 'N'] by decide
  | infinite negative =>
    cases negative with
    | false => exact show OfNumber ['I', 'N', 'F'] by decide
    | true => exact show OfNumber ['-', 'I', 'N', 'F'] by decide
  | finite negative rank =>
    have hmagnitude : OfNumber ((FloatStyle.literal precision).decimalText
        (if rank.val = 0 then ⟨['0'], 0⟩
          else Decimal.significant precision (Binary64.units rank) unitsPerOne)) := by
      split
      · exact hdecimal _ (by decide)
      · exact hdecimal _ (ofNumber_ofGrid _ _)
    cases negative with
    | false => exact hmagnitude
    | true => exact hmagnitude.cons (by decide)

/-! ## The length of integers -/

/-- Whether a scalar has a text: an integer may have too many digits. -/
def Scalar.Writable (s : Scalar) : Prop :=
  ∀ n, s = .int n → (Text.ofNat n.natAbs).length ≤ digitLimit

namespace Scalar

theorem writable_int_iff (n : Int) :
    (int n).Writable ↔ (Text.ofNat n.natAbs).length ≤ digitLimit := by
  simp [Writable]

instance decidableWritable : (s : Scalar) → Decidable s.Writable
  | int n => decidable_of_iff _ (writable_int_iff n).symm
  | null | bool _ | float _ | text _ => isTrue nofun

theorem label_of_writable {s : Scalar} (h : s.Writable) : ∃ t, s.label = .ok t := by
  cases s with
  | int n => exact ⟨_, if_pos ((writable_int_iff n).1 h)⟩
  | _ => exact ⟨_, rfl⟩

theorem label_of_not_writable {s : Scalar} (h : ¬s.Writable) :
    s.label = .error .unwritableInteger := by
  cases s with
  | int n => exact if_neg fun hlength => h ((writable_int_iff n).2 hlength)
  | _ => exact absurd nofun h

end Scalar

/-! ## Numbers are not empty -/

theorem integerText_ne_nil {n : Int} {t : Text} (h : integerText n = .ok t) : t ≠ [] := by
  obtain ⟨-, rfl⟩ := integerText_eq_ok_iff.1 h
  rw [ofInt]
  split
  · exact List.cons_ne_nil _ _
  · exact Nat.toDigits_ne_nil

theorem FloatStyle.decimalText_ne_nil (style : FloatStyle) (d : Decimal) :
    style.decimalText d ≠ [] := by
  intro h
  rw [decimalText] at h
  split at h
  · split at h
    · simp at h
    · have hlength := congrArg List.length h
      simp only [positional, List.length_append, List.length_take, List.length_replicate,
        List.length_nil] at hlength
      omega
  · simp at h

theorem literalText_ne_nil (precision : Nat) (x : Binary64) : x.literalText precision ≠ [] := by
  cases x with
  | nan => exact List.cons_ne_nil _ _
  | infinite negative => cases negative <;> exact List.cons_ne_nil _ _
  | finite negative rank =>
    cases negative with
    | false => exact FloatStyle.decimalText_ne_nil _ _
    | true => exact List.cons_ne_nil _ _

end QueryTemplate
