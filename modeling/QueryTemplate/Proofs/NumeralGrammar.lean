import Mathlib.Data.List.TakeWhile
import QueryTemplate.Number.Numeral

/-!
# The grammar of numerals

The numerals of the grammar (`Numeral.WellFormed`): an optional sign; one or more digits with an
optional fraction of any digits, or a point and one or more digits; an optional exponent of one or
more digits. The reader finds such a numeral and the rest of the text (`read?_sound`), and where one
begins it does not stop before its end (`read?_append`). With nothing behind a numeral that could be
a part of it, the reader takes that numeral (`read?_text_append`); so the grammar is not ambiguous
(`text_inj`).
-/

namespace QueryTemplate

/-! ## Parts of numerals -/

def AllDigits (t : Text) : Prop := ∀ c ∈ t, isDecimalDigit c

/-- What follows a numeral cannot be a part of it. -/
def Stops (t : Text) : Prop := ∀ c ∈ t.head?, isDecimalDigit c = false ∧ c ∉ ['.', 'e', 'E']

theorem stops_nil : Stops [] := nofun

section Digits

variable {digits t : Text}

theorem allDigits_takeWhile (t : Text) : AllDigits (t.takeWhile isDecimalDigit) :=
  fun _ hc => List.mem_takeWhile_imp hc

theorem allDigits_ofNat (n : Nat) : AllDigits (Text.ofNat n) := by
  intro c hc
  rw [isDecimalDigit, digitValue?_of_isDigit (Text.isDigit_of_mem_ofNat hc)]
  rfl

theorem takeWhile_eq_nil (ht : ∀ c ∈ t.head?, isDecimalDigit c = false) :
    t.takeWhile isDecimalDigit = [] := by
  cases t with
  | nil => rfl
  | cons c t => rw [List.takeWhile_cons, ht c rfl, if_neg Bool.false_ne_true]

theorem dropWhile_eq_self (ht : ∀ c ∈ t.head?, isDecimalDigit c = false) :
    t.dropWhile isDecimalDigit = t := by
  cases t with
  | nil => rfl
  | cons c t => rw [List.dropWhile_cons, ht c rfl, if_neg Bool.false_ne_true]

theorem AllDigits.head_not_sign (h : AllDigits digits) (hne : digits ≠ []) (t : Text) :
    ∀ c ∈ (digits ++ t).head?, c ∉ ['+', '-'] := by
  obtain ⟨d, digits, rfl⟩ := List.exists_cons_of_ne_nil hne
  rintro c hc hsign
  obtain rfl : d = c := Option.some.inj hc
  have hd := h d List.mem_cons_self
  simp only [List.mem_cons, List.not_mem_nil, or_false] at hsign
  rcases hsign with rfl | rfl <;> exact absurd hd (by decide)

end Digits

theorem isBlank_of_isDecimalDigit {c : Char} (h : isDecimalDigit c) : isBlank c = false := by
  obtain ⟨z, hz, hc⟩ : ∃ z ∈ decimalZeros, z ≤ c.toNat ∧ c.toNat < z + 10 := by
    obtain ⟨d, hd⟩ := Option.isSome_iff_exists.1 h
    obtain ⟨z, hz, hif⟩ := List.exists_of_findSome?_eq_some hd
    split at hif
    · exact ⟨z, hz, ‹_›⟩
    · cases hif
  have hapart : ∀ z ∈ decimalZeros, 0x20 < z ∧ (z + 10 ≤ 0x2000 ∨ 0x200a < z) ∧
      ∀ b ∈ [0x85, 0xa0, 0x1680, 0x2028, 0x2029, 0x202f, 0x205f, 0x3000],
        b < z ∨ z + 10 ≤ b := by decide
  have hz' := hapart z hz
  simp only [isBlank, isWhiteSpace, List.mem_cons, List.not_mem_nil, or_false, forall_eq_or_imp,
    forall_eq, Bool.or_eq_false_iff, decide_eq_false_iff_not, List.contains_eq_mem] at hz' ⊢
  omega

theorem Sign.text_read (t : Text) : Sign.text (Sign.read t).1 ++ (Sign.read t).2 = t := by
  unfold Sign.read
  split <;> rfl

theorem Sign.read_text_append (sign : Option Sign) {t : Text}
    (ht : ∀ c ∈ t.head?, c ∉ ['+', '-']) : Sign.read (Sign.text sign ++ t) = (sign, t) := by
  cases sign with
  | some sign => cases sign <;> rfl
  | none =>
    cases t with
    | nil => rfl
    | cons c t =>
      have hc := ht c rfl
      change Sign.read (c :: t) = _
      unfold Sign.read
      split <;> simp_all

namespace Exponent

structure WellFormed (e : Exponent) : Prop where
  mark : e.mark = 'e' ∨ e.mark = 'E'
  digits : AllDigits e.digits
  ne_nil : e.digits ≠ []

variable {e : Exponent} {t rest : Text}

theorem read_of_not_mark (ht : ∀ c ∈ t.head?, c ≠ 'e' ∧ c ≠ 'E') : Exponent.read t = (none, t) := by
  cases t with
  | nil => rfl
  | cons c t =>
    simp only [Exponent.read]
    exact if_neg fun h => h.1.elim (ht c rfl).1 (ht c rfl).2

theorem read_cases (t : Text) :
    Exponent.read t = (none, t) ∨
      ∃ e rest, Exponent.read t = (some e, rest) ∧ e.WellFormed ∧ e.text ++ rest = t := by
  cases t with
  | nil => exact .inl rfl
  | cons c t =>
    have hsign := Sign.text_read t
    simp only [Exponent.read]
    split
    · rename_i h
      refine .inr ⟨_, _, rfl, ⟨h.1, allDigits_takeWhile _, h.2⟩, ?_⟩
      simp [Exponent.text, hsign]
    · exact .inl rfl

theorem read_append (h : e.WellFormed) (t : Text) :
    Exponent.read (e.text ++ t) =
      (some { e with digits := e.digits ++ t.takeWhile isDecimalDigit },
        t.dropWhile isDecimalDigit) := by
  have htext : e.text ++ t = e.mark :: (Sign.text e.sign ++ (e.digits ++ t)) := by
    simp [Exponent.text]
  rw [htext, Exponent.read]
  simp only [Sign.read_text_append e.sign (h.digits.head_not_sign h.ne_nil t)]
  rw [List.takeWhile_append_of_pos h.digits, List.dropWhile_append_of_pos h.digits, if_pos]
  exact ⟨h.mark, List.append_ne_nil_of_left_ne_nil h.ne_nil _⟩

end Exponent

namespace Numeral

/-! ## Digits with a fraction -/

def mantissaText (whole : Text) (fraction : Option Text) : Text :=
  whole ++ fraction.elim [] ('.' :: ·)

structure IsMantissa (whole : Text) (fraction : Option Text) : Prop where
  allDigits : AllDigits whole
  fraction_allDigits : ∀ digits ∈ fraction, AllDigits digits
  nonempty : whole ≠ [] ∨ ∃ digits ∈ fraction, digits ≠ []

theorem readDigits?_sound {t whole rest : Text} {fraction : Option Text}
    (h : readDigits? t = some (whole, fraction, rest)) :
    IsMantissa whole fraction ∧ mantissaText whole fraction ++ rest = t := by
  have ht : t.takeWhile isDecimalDigit ++ t.dropWhile isDecimalDigit = t :=
    List.takeWhile_append_dropWhile
  simp only [readDigits?] at h
  split at h
  · rename_i behind hbehind
    split at h
    · cases h
    · rename_i hne
      simp only [Option.some.injEq, Prod.mk.injEq] at h
      obtain ⟨rfl, rfl, rfl⟩ := h
      rw [hbehind] at ht
      refine ⟨⟨allDigits_takeWhile _, ?_, ?_⟩, ?_⟩
      · rintro digits ⟨⟩
        exact allDigits_takeWhile _
      · by_cases hwhole : t.takeWhile isDecimalDigit = []
        · exact .inr ⟨_, rfl, fun hfraction => hne ⟨hwhole, hfraction⟩⟩
        · exact .inl hwhole
      · simpa [mantissaText] using ht
  · split at h
    · cases h
    · rename_i hwhole
      simp only [Option.some.injEq, Prod.mk.injEq] at h
      obtain ⟨rfl, rfl, rfl⟩ := h
      refine ⟨⟨allDigits_takeWhile _, nofun, .inl hwhole⟩, ?_⟩
      simp [mantissaText]

theorem readDigits?_pointed {whole t : Text} (hwhole : AllDigits whole)
    (hne : whole ≠ [] ∨ t.takeWhile isDecimalDigit ≠ []) :
    readDigits? (whole ++ '.' :: t) =
      some (whole, some (t.takeWhile isDecimalDigit), t.dropWhile isDecimalDigit) := by
  have hpoint : ∀ c ∈ ('.' :: t).head?, isDecimalDigit c = false := by
    rintro c ⟨⟩
    decide
  simp only [readDigits?]
  rw [List.takeWhile_append_of_pos hwhole, List.dropWhile_append_of_pos hwhole,
    takeWhile_eq_nil hpoint, dropWhile_eq_self hpoint, List.append_nil]
  exact if_neg fun h => hne.elim (· h.1) (· h.2)

section Mantissa

variable {whole : Text} {fraction : Option Text} (h : IsMantissa whole fraction)
include h

theorem IsMantissa.head_not_sign (t : Text) :
    ∀ c ∈ (mantissaText whole fraction ++ t).head?, c ∉ ['+', '-'] := by
  by_cases hwhole : whole = []
  · obtain ⟨digits, rfl, -⟩ := h.nonempty.resolve_left fun hne => hne hwhole
    rw [hwhole]
    rintro c ⟨⟩
    decide
  · rw [mantissaText, List.append_assoc]
    exact h.allDigits.head_not_sign hwhole _

theorem readDigits?_append (t : Text) :
    ∃ whole' fraction' rest,
      readDigits? (mantissaText whole fraction ++ t) = some (whole', fraction', rest) ∧
        rest <:+ t := by
  cases fraction with
  | some digits =>
    have hdigits := h.fraction_allDigits digits rfl
    have hne : whole ≠ [] ∨ (digits ++ t).takeWhile isDecimalDigit ≠ [] := by
      rw [List.takeWhile_append_of_pos hdigits]
      refine h.nonempty.imp_right ?_
      rintro ⟨_, ⟨⟩, hne⟩
      exact List.append_ne_nil_of_left_ne_nil hne _
    have hread := readDigits?_pointed h.allDigits hne
    rw [List.dropWhile_append_of_pos hdigits] at hread
    have htext : mantissaText whole (some digits) ++ t = whole ++ '.' :: (digits ++ t) := by
      simp [mantissaText]
    exact ⟨_, _, _, htext ▸ hread, List.dropWhile_suffix _⟩
  | none =>
    have hwhole : whole ≠ [] := h.nonempty.resolve_right nofun
    have hne : whole ++ t.takeWhile isDecimalDigit ≠ [] :=
      List.append_ne_nil_of_left_ne_nil hwhole _
    have hsuffix : t.dropWhile isDecimalDigit <:+ t := List.dropWhile_suffix _
    simp only [mantissaText, Option.elim_none, List.append_nil, readDigits?]
    rw [List.takeWhile_append_of_pos h.allDigits, List.dropWhile_append_of_pos h.allDigits]
    split
    · rename_i behind hbehind
      rw [hbehind] at hsuffix
      rw [if_neg fun hnil => hne hnil.1]
      exact ⟨_, _, _, rfl,
        (List.dropWhile_suffix _).trans ((List.suffix_cons '.' behind).trans hsuffix)⟩
    · rw [if_neg hne]
      exact ⟨_, _, _, rfl, hsuffix⟩

theorem readDigits?_text_append {t : Text} (ht : ∀ c ∈ t.head?, isDecimalDigit c = false ∧ c ≠ '.') :
    readDigits? (mantissaText whole fraction ++ t) = some (whole, fraction, t) := by
  have hdigit : ∀ c ∈ t.head?, isDecimalDigit c = false := fun c hc => (ht c hc).1
  cases fraction with
  | some digits =>
    have hdigits := h.fraction_allDigits digits rfl
    have htake : (digits ++ t).takeWhile isDecimalDigit = digits := by
      rw [List.takeWhile_append_of_pos hdigits, takeWhile_eq_nil hdigit, List.append_nil]
    have hne : whole ≠ [] ∨ (digits ++ t).takeWhile isDecimalDigit ≠ [] := by
      rw [htake]
      refine h.nonempty.imp_right ?_
      rintro ⟨_, ⟨⟩, hne⟩
      exact hne
    have hread := readDigits?_pointed h.allDigits hne
    rw [htake, List.dropWhile_append_of_pos hdigits, dropWhile_eq_self hdigit] at hread
    have htext : mantissaText whole (some digits) ++ t = whole ++ '.' :: (digits ++ t) := by
      simp [mantissaText]
    rw [htext, hread]
  | none =>
    have hwhole : whole ≠ [] := h.nonempty.resolve_right nofun
    simp only [mantissaText, Option.elim_none, List.append_nil, readDigits?]
    rw [List.takeWhile_append_of_pos h.allDigits, List.dropWhile_append_of_pos h.allDigits,
      takeWhile_eq_nil hdigit, dropWhile_eq_self hdigit, List.append_nil]
    split
    · exact absurd rfl (ht '.' rfl).2
    · exact if_neg hwhole

end Mantissa

/-! ## Numerals -/

structure WellFormed (n : Numeral) : Prop where
  mantissa : IsMantissa n.whole n.fraction
  exponent : ∀ e ∈ n.exponent, e.WellFormed

/-- A text is a numeral of the grammar. -/
def IsNumeral (t : Text) : Prop := ∃ n : Numeral, n.WellFormed ∧ n.text = t

theorem text_eq (n : Numeral) :
    n.text = Sign.text n.sign ++
      (mantissaText n.whole n.fraction ++ n.exponent.elim [] Exponent.text) := by
  simp [text, mantissaText]

theorem read?_eq (t : Text) :
    read? t = (readDigits? (Sign.read t).2).map fun parts =>
      (⟨(Sign.read t).1, parts.1, parts.2.1, (Exponent.read parts.2.2).1⟩,
        (Exponent.read parts.2.2).2) := rfl

theorem read?_sound {t rest : Text} {n : Numeral} (h : read? t = some (n, rest)) :
    n.WellFormed ∧ n.text ++ rest = t := by
  have hsign := Sign.text_read t
  rw [read?_eq] at h
  obtain ⟨⟨whole, fraction, tail⟩, hdigits, hn⟩ := Option.map_eq_some_iff.1 h
  obtain ⟨rfl, rfl⟩ := Prod.mk.inj hn
  obtain ⟨hmantissa, htail⟩ := readDigits?_sound hdigits
  rw [← htail] at hsign
  rcases Exponent.read_cases tail with hexponent | ⟨e, rest', hexponent, he, hrest⟩
  · refine ⟨⟨hmantissa, ?_⟩, ?_⟩
    · rw [hexponent]
      nofun
    · simpa [text_eq, hexponent] using hsign
  · refine ⟨⟨hmantissa, ?_⟩, ?_⟩
    · rw [hexponent]
      rintro _ ⟨⟩
      exact he
    · simpa [text_eq, hexponent, hrest] using hsign

section Read

variable {n : Numeral} (h : n.WellFormed)
include h

theorem sign_read_append (t : Text) :
    Sign.read (n.text ++ t) =
      (n.sign, mantissaText n.whole n.fraction ++ (n.exponent.elim [] Exponent.text ++ t)) := by
  rw [text_eq, List.append_assoc, List.append_assoc]
  exact Sign.read_text_append n.sign (h.mantissa.head_not_sign _)

theorem readDigits?_exponent {e : Exponent} (he : n.exponent = some e) (t : Text) :
    readDigits? (mantissaText n.whole n.fraction ++ (e.text ++ t)) =
      some (n.whole, n.fraction, e.text ++ t) := by
  refine readDigits?_text_append h.mantissa ?_
  rintro c ⟨⟩
  rcases (h.exponent e he).mark with hmark | hmark <;> rw [hmark] <;> decide

/-- **Where a numeral begins, the reader does not stop before its end.** -/
theorem read?_append (t : Text) :
    ∃ n' rest, read? (n.text ++ t) = some (n', rest) ∧ rest <:+ t := by
  rw [read?_eq, sign_read_append h]
  cases he : n.exponent with
  | some e =>
    rw [Option.elim_some, readDigits?_exponent h he, Option.map_some]
    refine ⟨_, _, rfl, ?_⟩
    rw [Exponent.read_append (h.exponent e he)]
    exact List.dropWhile_suffix _
  | none =>
    obtain ⟨whole, fraction, tail, hread, hsuffix⟩ := readDigits?_append h.mantissa t
    rw [Option.elim_none, List.nil_append, hread, Option.map_some]
    refine ⟨_, _, rfl, ?_⟩
    rcases Exponent.read_cases tail with hexponent | ⟨e, rest, hexponent, -, hrest⟩
    · rw [hexponent]
      exact hsuffix
    · rw [hexponent]
      exact (hrest ▸ List.suffix_append e.text rest).trans hsuffix

/-- **A numeral is read exactly when nothing follows that could be a part of it.** -/
theorem read?_text_append {t : Text} (ht : Stops t) : read? (n.text ++ t) = some (n, t) := by
  have hdigit : ∀ c ∈ t.head?, isDecimalDigit c = false := fun c hc => (ht c hc).1
  rw [read?_eq, sign_read_append h]
  cases he : n.exponent with
  | some e =>
    rw [Option.elim_some, readDigits?_exponent h he, Option.map_some,
      Exponent.read_append (h.exponent e he), takeWhile_eq_nil hdigit, dropWhile_eq_self hdigit,
      List.append_nil, ← he]
  | none =>
    have hpoint : ∀ c ∈ t.head?, isDecimalDigit c = false ∧ c ≠ '.' := by
      intro c hc
      refine ⟨hdigit c hc, ?_⟩
      rintro rfl
      exact absurd (ht _ hc).2 (by decide)
    have hmark : ∀ c ∈ t.head?, c ≠ 'e' ∧ c ≠ 'E' := by
      intro c hc
      constructor <;> rintro rfl <;> exact absurd (ht _ hc).2 (by decide)
    rw [Option.elim_none, List.nil_append, readDigits?_text_append h.mantissa hpoint,
      Option.map_some, Exponent.read_of_not_mark hmark, ← he]

end Read

theorem text_inj {n n' : Numeral} (h : n.WellFormed) (h' : n'.WellFormed)
    (heq : n.text = n'.text) : n = n' := by
  have hread := read?_text_append h stops_nil
  rw [heq, read?_text_append h' stops_nil] at hread
  exact (congrArg Prod.fst (Option.some.inj hread)).symm

theorem mem_text {n : Numeral} (h : n.WellFormed) {c : Char} (hc : c ∈ n.text) :
    isDecimalDigit c ∨ c ∈ ['+', '-', '.', 'e', 'E'] := by
  have hsign : ∀ sign, c ∈ Sign.text sign → c ∈ ['+', '-', '.', 'e', 'E'] := by
    intro sign hc
    rcases sign with _ | _ | _
    · cases hc
    · rw [List.mem_singleton.1 hc]
      decide
    · rw [List.mem_singleton.1 hc]
      decide
  rw [text_eq, mantissaText, List.mem_append, List.mem_append, List.mem_append] at hc
  rcases hc with hc | (hc | hc) | hc
  · exact .inr (hsign _ hc)
  · exact .inl (h.mantissa.allDigits c hc)
  · obtain ⟨digits, hfraction, hc⟩ : ∃ digits, n.fraction = some digits ∧ c ∈ '.' :: digits := by
      cases hfraction : n.fraction with
      | none => simp [hfraction] at hc
      | some digits => exact ⟨digits, rfl, by simpa [hfraction] using hc⟩
    rcases List.mem_cons.1 hc with rfl | hc
    · exact .inr (by decide)
    · exact .inl (h.mantissa.fraction_allDigits digits hfraction c hc)
  · obtain ⟨e, hexponent, hc⟩ : ∃ e, n.exponent = some e ∧ c ∈ e.text := by
      cases hexponent : n.exponent with
      | none => simp [hexponent] at hc
      | some e => exact ⟨e, rfl, by simpa [hexponent] using hc⟩
    have he := h.exponent e hexponent
    rw [Exponent.text, List.cons_append, List.mem_cons, List.mem_append] at hc
    rcases hc with rfl | hc | hc
    · rcases he.mark with hmark | hmark <;> rw [hmark] <;> exact .inr (by decide)
    · exact .inr (hsign _ hc)
    · exact .inl (he.digits c hc)

/-! ## The longest numeral -/

theorem read?_eq_none_iff (t : Text) : read? t = none ↔ ∀ t', t' <+: t → ¬IsNumeral t' := by
  constructor
  · rintro hnone _ ⟨rest, rfl⟩ ⟨n, hn, rfl⟩
    obtain ⟨n', rest', hread, -⟩ := read?_append hn rest
    rw [hnone] at hread
    cases hread
  · intro h
    cases hread : read? t with
    | none => rfl
    | some result =>
      obtain ⟨hn, htext⟩ := read?_sound hread
      exact absurd ⟨_, hn, rfl⟩ (h _ ⟨_, htext⟩)

theorem leading?_text {n : Numeral} (h : n.WellFormed) : leading? n.text = some n := by
  have hdrop : n.text.dropWhile isBlank = n.text := by
    cases htext : n.text with
    | nil => rfl
    | cons c t =>
      have hc : isBlank c = false := by
        rcases mem_text h (htext ▸ List.mem_cons_self) with hdigit | hsign
        · exact isBlank_of_isDecimalDigit hdigit
        · simp only [List.mem_cons, List.not_mem_nil, or_false] at hsign
          rcases hsign with rfl | rfl | rfl | rfl | rfl <;> decide
      rw [List.dropWhile_cons, hc, if_neg Bool.false_ne_true]
  have hread := read?_text_append h stops_nil
  rw [List.append_nil] at hread
  rw [leading?, hdrop, hread, Option.map_some]

theorem wellFormed_of_leading? {t : Text} {n : Numeral} (h : leading? t = some n) :
    n.WellFormed := by
  obtain ⟨⟨n', rest⟩, hread, rfl⟩ := Option.map_eq_some_iff.1 h
  exact (read?_sound hread).1

theorem length_le_of_read? {t rest t' : Text} {n : Numeral} (h : read? t = some (n, rest))
    (hstart : t' <+: t) (hn' : IsNumeral t') : t'.length ≤ n.text.length := by
  obtain ⟨rest', rfl⟩ := hstart
  obtain ⟨n', hn', rfl⟩ := hn'
  obtain ⟨n'', rest'', hread, hsuffix⟩ := read?_append hn' rest'
  rw [h] at hread
  obtain ⟨rfl, rfl⟩ := Prod.mk.inj (Option.some.inj hread)
  have hlength := congrArg List.length (read?_sound h).2
  rw [List.length_append, List.length_append] at hlength
  have hle := hsuffix.length_le
  omega

theorem read?_append_of_not_mem {t rest : Text} {n : Numeral} (h : read? t = some (n, rest))
    {c : Char} (hdigit : isDecimalDigit c = false) (hc : c ∉ ['+', '-', '.', 'e', 'E']) (t' : Text) :
    ∃ rest', read? (t ++ c :: t') = some (n, rest') := by
  obtain ⟨hn, htext⟩ := read?_sound h
  subst htext
  obtain ⟨n', rest', hread, -⟩ := read?_append hn (rest ++ c :: t')
  rw [← List.append_assoc] at hread
  obtain ⟨hn', htext'⟩ := read?_sound hread
  have hbegin : n.text <+: n.text ++ rest := List.prefix_append _ _
  -- the longest numeral of the longer text ends before the character
  have hstart : n'.text <+: n.text ++ rest := by
    by_contra hnot
    have hwhole : n'.text <+: (n.text ++ rest) ++ c :: t' := ⟨_, htext'⟩
    have hthrough : (n.text ++ rest) ++ [c] <+: n'.text := by
      refine List.prefix_of_prefix_length_le ⟨t', by simp⟩ hwhole ?_
      rw [List.length_append, List.length_singleton]
      by_contra hlength
      exact hnot (List.prefix_of_prefix_length_le hwhole (List.prefix_append _ _) (by omega))
    have hmem : c ∈ n'.text := hthrough.subset (List.mem_append_right _ List.mem_cons_self)
    rcases mem_text hn' hmem with hd | hsign
    · rw [hdigit] at hd
      cases hd
    · exact hc hsign
  have hle := length_le_of_read? h hstart ⟨n', hn', rfl⟩
  have hge := length_le_of_read? hread (hbegin.trans (List.prefix_append _ _)) ⟨n, hn, rfl⟩
  have heq : n'.text = n.text :=
    (List.prefix_of_prefix_length_le hstart hbegin hle).eq_of_length (Nat.le_antisymm hle hge)
  exact ⟨rest', text_inj hn' hn heq ▸ hread⟩

end Numeral

end QueryTemplate
