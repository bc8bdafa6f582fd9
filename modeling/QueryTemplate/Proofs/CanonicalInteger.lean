import QueryTemplate.Proofs.LeadingNumber

/-!
# Canonical integers

The text that a conversion to an integer leaves in a query (`Context.integer_canonical`) is made of
ASCII digits without a leading zero, behind a minus sign if the number is negative; there is no
minus sign before 0. So it is one numeral without a fraction or an exponent, and converting it again
gives the same text.
-/

namespace QueryTemplate

namespace Text

/-- ASCII digits without a leading zero; the number 0 is the digit 0 alone. -/
structure IsCanonical (digits : Text) : Prop where
  ne_nil : digits ≠ []
  isDigit : ∀ c ∈ digits, c.isDigit
  eq_zero : digits.head? = some '0' → digits = ['0']

/-- The text is the canonical one of an integer: it has a minus sign for numbers below 0. -/
inductive Denotes : Text → Int → Prop where
  | plain {digits : Text} (h : digits.IsCanonical) : Denotes digits (Nat.ofDigitChars 10 digits 0)
  | negative {digits : Text} (h : digits.IsCanonical) (hne : digits ≠ ['0']) :
    Denotes ('-' :: digits) (-Nat.ofDigitChars 10 digits 0)

theorem head?_ofNat {n : Nat} (hn : n ≠ 0) : (ofNat n).head? ≠ some '0' := by
  induction n using Nat.strongRecOn with
  | _ n ih =>
    rcases Nat.lt_or_ge n 10 with hlt | hge
    · have hdigits : ∀ m < 10, m ≠ 0 → (ofNat m).head? ≠ some '0' := by decide
      exact hdigits n hlt hn
    · rw [ofNat, Nat.toDigits_of_base_le (by decide) hge,
        List.head?_append_of_ne_nil _ Nat.toDigits_ne_nil]
      exact ih (n / 10) (by omega) (by omega)

theorem isCanonical_ofNat (n : Nat) : (ofNat n).IsCanonical := by
  refine ⟨Nat.toDigits_ne_nil, fun c => isDigit_of_mem_ofNat, ?_⟩
  intro hzero
  by_cases hn : n = 0
  · rw [hn]
    rfl
  · exact absurd hzero (head?_ofNat hn)

theorem denotes_ofInt (n : Int) : Denotes (ofInt n) n := by
  have hvalue := ofDigitChars_ofNat n.natAbs
  rw [ofInt]
  split
  · have hne : ofNat n.natAbs ≠ ['0'] := fun h => head?_ofNat (by omega) (congrArg List.head? h)
    have hdenotes := Denotes.negative (isCanonical_ofNat n.natAbs) hne
    rwa [hvalue, Int.ofNat_natAbs_of_nonpos (by omega), Int.neg_neg] at hdenotes
  · have hdenotes := Denotes.plain (isCanonical_ofNat n.natAbs)
    rwa [hvalue, Int.natAbs_of_nonneg (by omega)] at hdenotes

end Text

/-! ## Reading them back -/

namespace Numeral

def ofInt (n : Int) : Numeral :=
  ⟨if n < 0 then some .minus else none, Text.ofNat n.natAbs, none, none⟩

theorem wellFormed_ofInt (n : Int) : (ofInt n).WellFormed :=
  ⟨⟨allDigits_ofNat _, nofun, .inl Nat.toDigits_ne_nil⟩, nofun⟩

theorem text_ofInt (n : Int) : (ofInt n).text = Text.ofInt n := by
  rw [text, ofInt, Text.ofInt]
  split <;> simp [Sign.text, Sign.char]

theorem sign_ofInt (n : Int) : (ofInt n).sign = some .minus ↔ n < 0 := by
  simp [ofInt]

theorem number_ofInt (n : Int) :
    (ofInt n).number = if (Text.ofNat n.natAbs).length ≤ digitLimit then .ok (.int n)
      else .error (.unreadableInteger (Text.ofNat n.natAbs).length) := by
  have hinteger : (ofInt n).isInteger = true := rfl
  have hdigits : digitsValue (ofInt n).whole = n.natAbs := digitsValue_ofNat n.natAbs
  rw [number, if_pos hinteger, hdigits, Sign.apply_natAbs (sign_ofInt n)]
  rfl

end Numeral

/-- The limits of reading and of writing are the same. -/
theorem Datum.toInt_ofInt (n : Int) :
    (scalar (.text (Text.ofInt n))).toInt =
      if (Text.ofNat n.natAbs).length ≤ digitLimit then .ok n
      else .error (.unreadableInteger (Text.ofNat n.natAbs).length) := by
  rw [toInt, ← Numeral.text_ofInt, number_text (Numeral.leading?_text (Numeral.wellFormed_ofInt n)),
    Numeral.number_ofInt]
  split <;> rfl

namespace Context

variable (ctx : Context)

theorem renderArgument_integerText {n : Int} {t : Text} (h : integerText n = .ok t) :
    ctx.renderArgument .integer (.scalar (.text t)) = .ok t := by
  obtain ⟨hlength, ht⟩ := integerText_eq_ok_iff.1 h
  have hread : (Datum.scalar (.text t)).toInt = .ok n := by
    rw [ht, Datum.toInt_ofInt, if_pos hlength]
  change (Datum.scalar (.text t)).toInt.bind integerText = .ok t
  rw [hread]
  exact h

/-- **A conversion to an integer leaves a canonical integer, and converting it again changes
nothing.** -/
theorem integer_canonical {a : Argument} {t : Text} (ha : a.classify ≠ .ok .skip)
    (h : ctx.renderArgument .integer a = .ok t) :
    ∃ d n, a.classify = .ok (.datum d) ∧ d.toInt = .ok n ∧ t.Denotes n ∧
      ∀ ctx' : Context, ctx'.renderArgument .integer (.scalar (.text t)) = .ok t := by
  rw [renderArgument] at h
  split at h
  · rename_i hskip
    exact absurd hskip ha
  · rename_i d hd
    rw [render] at h
    cases hn : d.toInt with
    | error e =>
      rw [hn] at h
      cases h
    | ok n =>
      rw [hn] at h
      replace h : integerText n = .ok t := h
      refine ⟨d, n, hd, hn, ?_, fun ctx' => ctx'.renderArgument_integerText h⟩
      rw [(integerText_eq_ok_iff.1 h).2]
      exact Text.denotes_ofInt n
  · cases h

/-- Leading zeros and digits of another script behind a blank, with a fraction that is cut off. -/
theorem integer_canonical_digits :
    let ctx : Context := ⟨.builtin .mysql, {}, []⟩
    let t : Text := [' ', '-', '\u0660', '\u0667', '.', '9', 'x']
    ctx.renderArgument .integer (.scalar (.text t)) = .ok ['-', '7'] ∧
      (∃ n, (Datum.scalar (.text t)).toInt = .ok n ∧ Text.Denotes ['-', '7'] n) ∧
      ctx.renderArgument .integer (.scalar (.text ['-', '7'])) = .ok ['-', '7'] := by
  intro ctx t
  have hclassify : (Argument.scalar (.text t)).classify = .ok (.datum (.scalar (.text t))) := rfl
  have h : ctx.renderArgument .integer (.scalar (.text t)) = .ok ['-', '7'] := by decide +kernel
  obtain ⟨d, n, hd, hn, hdenotes, hagain⟩ :=
    ctx.integer_canonical (a := .scalar (.text t)) (by rw [hclassify]; nofun) h
  obtain rfl : Datum.scalar (.text t) = d :=
    Value.datum.inj (Except.ok.inj (hclassify.symm.trans hd))
  exact ⟨h, ⟨n, hn, hdenotes⟩, hagain ctx⟩

end Context

end QueryTemplate
