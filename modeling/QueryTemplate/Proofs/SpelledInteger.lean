import Mathlib.Data.List.TakeWhile
import QueryTemplate.Proofs.ExactValue
import QueryTemplate.Proofs.NumeralGrammar
import QueryTemplate.Settings.Reading

/-!
# Integers in settings

Which arguments give an integer where a setting asks for one (`Argument.GivesInteger`): integers,
booleans, floating-point numbers that equal an integer, and the texts of a grammar
(`IntegerSpelling`). A precision is read from exactly the arguments that give an integer in its
range, and it is that integer (`ofArgument?_eq_some_iff`). For texts the reader is taken apart into
its steps (`ofText?_eq`), and each step is compared with its part of the grammar.
-/

namespace QueryTemplate

/-! ## The grammar -/

/-- Digits of ASCII, with single underscores between some of them, and the digits alone. -/
inductive Grouped : Text → Text → Prop where
  | last {d : Char} (hd : d.isDigit) : Grouped [d] [d]
  | digit {d : Char} {t digits : Text} (hd : d.isDigit) (h : Grouped t digits) :
    Grouped (d :: t) (d :: digits)
  | underscore {d : Char} {t digits : Text} (hd : d.isDigit) (h : Grouped t digits) :
    Grouped (d :: '_' :: t) (d :: digits)

/-- Zeros in front of a number, with underscores behind the first. -/
def IsPadding (t : Text) : Prop := t = [] ∨ ∃ more, t = '0' :: more ∧ ∀ c ∈ more, c = '0' ∨ c = '_'

def IsZeroFraction (t : Text) : Prop := t = [] ∨ ∃ n, t = '.' :: List.replicate (n + 1) '0'

/-- An integer as it may be spelled in a setting, between white space. -/
structure IntegerSpelling where
  before : Text
  sign : Option Sign
  padding : Text
  grouped : Text
  digits : Text
  fraction : Text
  behind : Text
  blank_before : ∀ c ∈ before, isWhiteSpace c
  isPadding : IsPadding padding
  isGrouped : Grouped grouped digits
  isZeroFraction : IsZeroFraction fraction
  blank_behind : ∀ c ∈ behind, isWhiteSpace c

namespace IntegerSpelling

def core (s : IntegerSpelling) : Text :=
  Sign.text s.sign ++ (s.padding ++ (s.grouped ++ s.fraction))

def text (s : IntegerSpelling) : Text := s.before ++ s.core ++ s.behind

def value (s : IntegerSpelling) : Int := Sign.apply s.sign (Nat.ofDigitChars 10 s.digits 0)

end IntegerSpelling

def SpellsInteger (t : Text) (n : Int) : Prop := ∃ s : IntegerSpelling, s.text = t ∧ s.value = n

/-- An argument gives an integer to a setting that asks for one. -/
inductive Argument.GivesInteger : Argument → Int → Prop where
  | int (n : Int) : GivesInteger (.scalar (.int n)) n
  | bool (b : Bool) : GivesInteger (.scalar (.bool b)) b.toNat
  | float {x : Binary64} {n : Int} (h : x.value? = some (n : ℚ)) :
    GivesInteger (.scalar (.float x)) n
  | text {t : Text} {n : Int} (h : SpellsInteger t n) : GivesInteger (.scalar (.text t)) n

/-! ## Grouped digits -/

def IsGroup (g : Text) : Prop := g ≠ [] ∧ ∀ c ∈ g, c.isDigit

theorem IsGroup.grouped_append {g t digits : Text} (hg : IsGroup g)
    (h : ∀ d : Char, d.isDigit → Grouped (d :: t) (d :: digits)) :
    Grouped (g ++ t) (g ++ digits) := by
  obtain ⟨hne, hdigits⟩ := hg
  induction g with
  | nil => exact absurd rfl hne
  | cons d g ih =>
    rw [List.forall_mem_cons] at hdigits
    cases g with
    | nil => exact h d hdigits.1
    | cons d' g => exact .digit hdigits.1 (ih (List.cons_ne_nil _ _) hdigits.2)

theorem grouped_intercalate {groups : List Text} (hne : groups ≠ [])
    (h : ∀ g ∈ groups, IsGroup g) : Grouped (['_'].intercalate groups) groups.flatten := by
  induction groups with
  | nil => exact absurd rfl hne
  | cons g groups ih =>
    rw [List.forall_mem_cons] at h
    cases groups with
    | nil => simpa using h.1.grouped_append (fun d hd => .last hd)
    | cons g' groups =>
      rw [List.intercalate_cons_cons, List.append_assoc, List.flatten_cons]
      have hrest := ih (List.cons_ne_nil _ _) h.2
      exact h.1.grouped_append fun d hd => .underscore hd hrest

namespace Grouped

variable {t digits : Text}

theorem exists_groups (h : Grouped t digits) : ∃ groups : List Text, groups ≠ [] ∧
    (∀ g ∈ groups, IsGroup g) ∧ ['_'].intercalate groups = t ∧ groups.flatten = digits := by
  induction h with
  | @last d hd => exact ⟨[[d]], by simp, by simpa [IsGroup] using hd, rfl, rfl⟩
  | @digit d t digits hd h ih =>
    obtain ⟨groups, hne, hgroups, rfl, rfl⟩ := ih
    obtain ⟨g, groups, rfl⟩ := List.exists_cons_of_ne_nil hne
    rw [List.forall_mem_cons] at hgroups
    refine ⟨(d :: g) :: groups, List.cons_ne_nil _ _, ?_, ?_, rfl⟩
    · rw [List.forall_mem_cons]
      exact ⟨⟨List.cons_ne_nil _ _, List.forall_mem_cons.2 ⟨hd, hgroups.1.2⟩⟩, hgroups.2⟩
    · cases groups <;> simp
  | @underscore d t digits hd h ih =>
    obtain ⟨groups, hne, hgroups, rfl, rfl⟩ := ih
    obtain ⟨g, groups, rfl⟩ := List.exists_cons_of_ne_nil hne
    refine ⟨[d] :: g :: groups, List.cons_ne_nil _ _, ?_, ?_, rfl⟩
    · rw [List.forall_mem_cons]
      exact ⟨by simpa [IsGroup] using hd, hgroups⟩
    · rw [List.intercalate_cons_cons]
      rfl

theorem head_isDigit (h : Grouped t digits) : ∃ d rest, t = d :: rest ∧ d.isDigit := by
  cases h with
  | last hd => exact ⟨_, _, rfl, hd⟩
  | digit hd => exact ⟨_, _, rfl, hd⟩
  | underscore hd => exact ⟨_, _, rfl, hd⟩

theorem last_isDigit (h : Grouped t digits) : ∃ front d, t = front ++ [d] ∧ d.isDigit := by
  induction h with
  | @last d hd => exact ⟨[], d, rfl, hd⟩
  | @digit d t digits hd h ih =>
    obtain ⟨front, d', rfl, hd'⟩ := ih
    exact ⟨d :: front, d', rfl, hd'⟩
  | @underscore d t digits hd h ih =>
    obtain ⟨front, d', rfl, hd'⟩ := ih
    exact ⟨d :: '_' :: front, d', rfl, hd'⟩

theorem ne_point (h : Grouped t digits) : ∀ c ∈ t, c ≠ '.' := by
  have hdigit : ∀ d : Char, d.isDigit → d ≠ '.' := by
    rintro d hd rfl
    exact absurd hd (by decide)
  induction h with
  | last hd => simpa using hdigit _ hd
  | digit hd h ih => exact List.forall_mem_cons.2 ⟨hdigit _ hd, ih⟩
  | underscore hd h ih =>
    exact List.forall_mem_cons.2 ⟨hdigit _ hd, List.forall_mem_cons.2 ⟨by decide, ih⟩⟩

end Grouped

namespace Precision

theorem ungroup?_eq_some_iff {t digits : Text} : ungroup? t = some digits ↔ Grouped t digits := by
  have hgroup : ∀ g : Text, (!g.isEmpty && g.all Char.isDigit) = true ↔ IsGroup g := by
    intro g
    simp [IsGroup]
  simp only [ungroup?, Option.ite_none_right_eq_some, Option.some.injEq, List.all_eq_true, hgroup]
  constructor
  · rintro ⟨hgroups, rfl⟩
    have h := grouped_intercalate (List.splitOn_ne_nil '_' t) hgroups
    rwa [List.intercalate_splitOn] at h
  · intro h
    obtain ⟨groups, hne, hgroups, rfl, rfl⟩ := h.exists_groups
    have hsplit : (['_'].intercalate groups).splitOn '_' = groups := by
      refine List.splitOn_intercalate '_' (fun g hg hmem => ?_) hne
      exact absurd ((hgroups g hg).2 _ hmem) (by decide)
    rw [hsplit]
    exact ⟨hgroups, rfl⟩

/-! ## The steps of the reader -/

def unsigned : Text → Text
  | '+' :: rest => rest
  | t => t

theorem unsigned_eq_self {t : Text} (h : ∀ rest, t ≠ '+' :: rest) : unsigned t = t := by
  unfold unsigned
  split
  · exact absurd rfl (h _)
  · rfl

def isPadding (c : Char) : Bool := c = '0' || c = '_'

def unpadded (t : Text) : Text := if t.head? = some '0' then t.dropWhile isPadding else t

def wholeDigits? (t : Text) : Option Text :=
  if isZeroFraction (t.dropWhile (· ≠ '.')) then ungroup? (t.takeWhile (· ≠ '.')) else none

theorem ofText?_eq (t : Text) : ofText? t =
    (wholeDigits? (unpadded (unsigned t.trim))).bind
      fun digits => ofInt? (Nat.ofDigitChars 10 digits 0) := by
  have hwhole : ∀ u : Text, (wholeDigits? u).bind (fun digits =>
      ofInt? (Nat.ofDigitChars 10 digits 0)) =
        if isZeroFraction (u.dropWhile (· ≠ '.')) then (ungroup? (u.takeWhile (· ≠ '.'))).bind
          fun digits => ofInt? (Nat.ofDigitChars 10 digits 0)
        else none := by
    intro u
    rw [wholeDigits?]
    split <;> rfl
  rw [hwhole, ofText?]
  split
  · rename_i htrim
    rw [htrim]
    rfl
  · rename_i hnot
    rw [unsigned_eq_self hnot]
    rfl

theorem isZeroFraction_iff {t : Text} (h : ∀ c ∈ t.head?, c = '.') :
    isZeroFraction t ↔ IsZeroFraction t := by
  cases t with
  | nil => simp [isZeroFraction, IsZeroFraction]
  | cons c zeros =>
    obtain rfl := h c rfl
    simp only [isZeroFraction, IsZeroFraction, Bool.and_eq_true, Bool.not_eq_true',
      List.isEmpty_eq_false_iff, List.all_eq_true, decide_eq_true_eq, List.cons_ne_nil, false_or,
      List.cons.injEq, true_and]
    constructor
    · rintro ⟨hne, hzeros⟩
      obtain ⟨n, hn⟩ := Nat.exists_eq_succ_of_ne_zero (List.length_pos_iff.2 hne).ne'
      exact ⟨n, List.eq_replicate_iff.2 ⟨hn, hzeros⟩⟩
    · rintro ⟨n, rfl⟩
      exact ⟨by simp, fun c hc => List.eq_of_mem_replicate hc⟩

theorem wholeDigits?_eq_some_iff {t digits : Text} : wholeDigits? t = some digits ↔
    ∃ grouped fraction, Grouped grouped digits ∧ IsZeroFraction fraction ∧
      t = grouped ++ fraction := by
  rw [wholeDigits?, Option.ite_none_right_eq_some, ungroup?_eq_some_iff]
  constructor
  · rintro ⟨hfraction, hgrouped⟩
    have hhead : ∀ c ∈ (t.dropWhile (· ≠ '.')).head?, c = '.' := by
      intro c hc
      have hstop := List.head?_dropWhile_not (· ≠ '.') t
      rw [Option.mem_def.1 hc] at hstop
      simpa using hstop
    exact ⟨_, _, hgrouped, (isZeroFraction_iff hhead).1 hfraction,
      List.takeWhile_append_dropWhile.symm⟩
  · rintro ⟨grouped, fraction, hgrouped, hfraction, rfl⟩
    have hhead : ∀ c ∈ fraction.head?, c = '.' := by
      rcases hfraction with rfl | ⟨n, rfl⟩
      · exact nofun
      · simp
    have hstop : fraction.takeWhile (· ≠ '.') = [] ∧ fraction.dropWhile (· ≠ '.') = fraction := by
      cases fraction with
      | nil => exact ⟨rfl, rfl⟩
      | cons c fraction =>
        obtain rfl := hhead c rfl
        exact ⟨rfl, rfl⟩
    have hgrouped' : ∀ c ∈ grouped, decide (c ≠ '.') = true := by
      intro c hc
      exact decide_eq_true (hgrouped.ne_point c hc)
    rw [List.takeWhile_append_of_pos hgrouped', List.dropWhile_append_of_pos hgrouped', hstop.1,
      hstop.2, List.append_nil, isZeroFraction_iff hhead]
    exact ⟨hfraction, hgrouped⟩

/-! ## Signs and zeros in front -/

theorem exists_sign (t : Text) : ∃ sign : Option Sign, sign ≠ some .minus ∧
    Sign.text sign ++ unsigned t = t := by
  unfold unsigned
  split
  · exact ⟨some .plus, by decide, rfl⟩
  · exact ⟨none, by decide, rfl⟩

theorem exists_padding (t : Text) : ∃ padding, IsPadding padding ∧ padding ++ unpadded t = t := by
  rw [unpadded]
  split
  · rename_i hhead
    obtain ⟨rest, rfl⟩ := List.head?_eq_some_iff.1 hhead
    refine ⟨'0' :: rest.takeWhile isPadding, .inr ⟨_, rfl, fun c hc => ?_⟩, ?_⟩
    · simpa [isPadding] using List.mem_takeWhile_imp hc
    · exact congrArg ('0' :: ·) List.takeWhile_append_dropWhile
  · exact ⟨[], .inl rfl, rfl⟩

theorem isPadding_eq_false {d : Char} (hd : d.isDigit) (h0 : d ≠ '0') : isPadding d = false := by
  have hunderscore : d ≠ '_' := by
    rintro rfl
    exact absurd hd (by decide)
  simp [isPadding, h0, hunderscore]

/-- Zeros at the start of grouped digits do not count, unless there is no other digit. An underscore
behind such a zero is dropped with it, so what is left begins with a digit. -/
theorem exists_dropWhile_isPadding {t digits : Text} (h : Grouped t digits)
    (hpos : Nat.ofDigitChars 10 digits 0 ≠ 0) (rest : Text) :
    ∃ t' digits', (t ++ rest).dropWhile isPadding = t' ++ rest ∧ Grouped t' digits' ∧
      Nat.ofDigitChars 10 digits' 0 = Nat.ofDigitChars 10 digits 0 := by
  induction h with
  | @last d hd =>
    have h0 : d ≠ '0' := by
      rintro rfl
      exact hpos rfl
    exact ⟨[d], [d], by simp [isPadding_eq_false hd h0], .last hd, rfl⟩
  | @digit d t digits hd h ih =>
    by_cases h0 : d = '0'
    · subst h0
      exact ih hpos
    · exact ⟨d :: t, d :: digits, by simp [isPadding_eq_false hd h0], .digit hd h, rfl⟩
  | @underscore d t digits hd h ih =>
    by_cases h0 : d = '0'
    · subst h0
      exact ih hpos
    · exact ⟨d :: '_' :: t, d :: digits, by simp [isPadding_eq_false hd h0], .underscore hd h, rfl⟩

theorem exists_unpadded {padding grouped digits : Text} (hpadding : IsPadding padding)
    (h : Grouped grouped digits) (hpos : Nat.ofDigitChars 10 digits 0 ≠ 0) (rest : Text) :
    ∃ grouped' digits', unpadded (padding ++ (grouped ++ rest)) = grouped' ++ rest ∧
      Grouped grouped' digits' ∧ Nat.ofDigitChars 10 digits' 0 = Nat.ofDigitChars 10 digits 0 := by
  rw [unpadded]
  split
  · have hall : ∀ c ∈ padding, QueryTemplate.Precision.isPadding c = true := by
      rcases hpadding with rfl | ⟨more, rfl, hmore⟩
      · exact nofun
      · exact List.forall_mem_cons.2 ⟨rfl, fun c hc => by simpa [isPadding] using hmore c hc⟩
    rw [List.dropWhile_append_of_pos hall]
    exact exists_dropWhile_isPadding h hpos rest
  · rename_i hhead
    rcases hpadding with rfl | ⟨more, rfl, -⟩
    · exact ⟨grouped, digits, rfl, h, rfl⟩
    · exact absurd rfl hhead

end Precision

/-! ## White space at the ends -/

theorem isWhiteSpace_of_isDigit {d : Char} (hd : d.isDigit) : isWhiteSpace d = false := by
  have hdecimal : isDecimalDigit d := by
    rw [isDecimalDigit, digitValue?_of_isDigit hd]
    rfl
  have hblank := isBlank_of_isDecimalDigit hdecimal
  rw [isBlank, Bool.or_eq_false_iff] at hblank
  exact hblank.1

namespace Text

theorem exists_trim (t : Text) : ∃ before behind, (∀ c ∈ before, isWhiteSpace c) ∧
    (∀ c ∈ behind, isWhiteSpace c) ∧ before ++ trim t ++ behind = t := by
  refine ⟨t.takeWhile isWhiteSpace,
    ((t.dropWhile isWhiteSpace).reverse.takeWhile isWhiteSpace).reverse,
    fun c hc => List.mem_takeWhile_imp hc,
    fun c hc => List.mem_takeWhile_imp (List.mem_reverse.1 hc), ?_⟩
  rw [trim, List.append_assoc, ← List.reverse_append, List.takeWhile_append_dropWhile,
    List.reverse_reverse, List.takeWhile_append_dropWhile]

theorem trim_between {before core behind : Text} (hbefore : ∀ c ∈ before, isWhiteSpace c)
    (hbehind : ∀ c ∈ behind, isWhiteSpace c)
    (hhead : ∃ c rest, core = c :: rest ∧ isWhiteSpace c = false)
    (hlast : ∃ front d, core = front ++ [d] ∧ isWhiteSpace d = false) :
    trim (before ++ core ++ behind) = core := by
  have hstart : (before ++ core ++ behind).dropWhile isWhiteSpace = core ++ behind := by
    obtain ⟨c, rest, rfl, hc⟩ := hhead
    rw [List.append_assoc, List.dropWhile_append_of_pos hbefore, List.cons_append,
      List.dropWhile_cons, hc, if_neg Bool.false_ne_true]
  have hbehind' : ∀ c ∈ behind.reverse, isWhiteSpace c := by
    intro c hc
    exact hbehind c (List.mem_reverse.1 hc)
  obtain ⟨front, d, rfl, hd⟩ := hlast
  rw [trim, hstart, List.reverse_append, List.dropWhile_append_of_pos hbehind',
    List.reverse_append, List.reverse_singleton, List.singleton_append, List.dropWhile_cons, hd,
    if_neg Bool.false_ne_true, List.reverse_cons, List.reverse_reverse]

end Text

namespace IntegerSpelling

variable (s : IntegerSpelling)

theorem unsigned_head :
    ∃ d rest, s.padding ++ (s.grouped ++ s.fraction) = d :: rest ∧ d.isDigit := by
  rcases s.isPadding with h | ⟨more, h, -⟩
  · obtain ⟨d, rest, hgrouped, hd⟩ := s.isGrouped.head_isDigit
    exact ⟨d, rest ++ s.fraction, by rw [h, hgrouped]; rfl, hd⟩
  · exact ⟨'0', more ++ (s.grouped ++ s.fraction), by rw [h]; rfl, rfl⟩

theorem core_head : ∃ c rest, s.core = c :: rest ∧ isWhiteSpace c = false := by
  rw [core]
  cases s.sign with
  | some sign => cases sign <;> exact ⟨_, _, rfl, by decide⟩
  | none =>
    obtain ⟨d, rest, h, hd⟩ := s.unsigned_head
    exact ⟨d, rest, h, isWhiteSpace_of_isDigit hd⟩

theorem core_last : ∃ front d, s.core = front ++ [d] ∧ isWhiteSpace d = false := by
  rw [core]
  rcases s.isZeroFraction with h | ⟨n, h⟩
  · obtain ⟨front, d, hgrouped, hd⟩ := s.isGrouped.last_isDigit
    refine ⟨Sign.text s.sign ++ (s.padding ++ front), d, ?_, isWhiteSpace_of_isDigit hd⟩
    simp [h, hgrouped]
  · refine ⟨Sign.text s.sign ++ (s.padding ++ (s.grouped ++ '.' :: List.replicate n '0')), '0', ?_,
      by decide⟩
    simp [h, List.replicate_succ']

theorem trim_text : s.text.trim = s.core :=
  Text.trim_between s.blank_before s.blank_behind s.core_head s.core_last

theorem value_pos (h : 0 < s.value) : s.sign ≠ some .minus ∧
    s.value = Nat.ofDigitChars 10 s.digits 0 ∧ Nat.ofDigitChars 10 s.digits 0 ≠ 0 := by
  rw [value, Sign.apply] at h ⊢
  split at h
  · omega
  · rename_i hsign
    rw [if_neg hsign]
    exact ⟨hsign, rfl, by omega⟩

theorem unsigned_core (h : s.sign ≠ some .minus) :
    Precision.unsigned s.core = s.padding ++ (s.grouped ++ s.fraction) := by
  rw [core]
  cases hsign : s.sign with
  | some sign =>
    cases sign with
    | plus => rfl
    | minus => exact absurd hsign h
  | none =>
    obtain ⟨d, rest, hd, hdigit⟩ := s.unsigned_head
    refine Precision.unsigned_eq_self fun rest' hplus => ?_
    obtain ⟨rfl, -⟩ := List.cons.inj (hd.symm.trans hplus)
    exact absurd hdigit (by decide)

end IntegerSpelling

/-! ## Precisions -/

namespace Precision

theorem ofInt?_eq_some_iff {n : Int} {p : Precision} : ofInt? n = some p ↔ n = p.digits := by
  obtain ⟨digits, hone, hseventeen⟩ := p
  rw [ofInt?]
  split
  · simp only [Option.some.injEq, Precision.mk.injEq]
    omega
  · simp only [reduceCtorEq, false_iff]
    omega

theorem ofText?_eq_some_iff {t : Text} {p : Precision} :
    ofText? t = some p ↔ SpellsInteger t p.digits := by
  rw [ofText?_eq, Option.bind_eq_some_iff]
  simp only [ofInt?_eq_some_iff]
  constructor
  · rintro ⟨digits, hdigits, hvalue⟩
    obtain ⟨grouped, fraction, hgrouped, hfraction, hunpadded⟩ := wholeDigits?_eq_some_iff.1 hdigits
    obtain ⟨before, behind, hbefore, hbehind, htrim⟩ := Text.exists_trim t
    obtain ⟨sign, hsign, hunsigned⟩ := exists_sign t.trim
    obtain ⟨padding, hpadding, hpadded⟩ := exists_padding (unsigned t.trim)
    rw [hunpadded] at hpadded
    refine ⟨⟨before, sign, padding, grouped, digits, fraction, behind, hbefore, hpadding, hgrouped,
      hfraction, hbehind⟩, ?_, ?_⟩
    · simp only [IntegerSpelling.text, IntegerSpelling.core, hpadded, hunsigned, htrim]
    · simp only [IntegerSpelling.value, Sign.apply, if_neg hsign, hvalue]
  · rintro ⟨s, rfl, hvalue⟩
    have hone := p.one_le
    obtain ⟨hsign, hdigits, hpos⟩ := s.value_pos (by omega)
    obtain ⟨grouped, digits, hunpadded, hgrouped, hsame⟩ :=
      exists_unpadded s.isPadding s.isGrouped hpos s.fraction
    refine ⟨digits, ?_, by rw [hsame, ← hdigits, hvalue]⟩
    rw [s.trim_text, s.unsigned_core hsign, hunpadded]
    exact wholeDigits?_eq_some_iff.2 ⟨grouped, s.fraction, hgrouped, s.isZeroFraction, rfl⟩

example : (ofText? " +00_1_7.0 ".toList).map digits = some 17 := by decide

theorem givesInteger_of_ofArgument? {a : Argument} {p : Precision} (h : ofArgument? a = some p) :
    a.GivesInteger p.digits := by
  match a with
  | .scalar .null => cases h
  | .scalar (.bool b) => exact ofInt?_eq_some_iff.1 h ▸ .bool b
  | .scalar (.int n) => exact ofInt?_eq_some_iff.1 h ▸ .int n
  | .scalar (.float x) =>
    obtain ⟨n, hn, hp⟩ := Option.bind_eq_some_iff.1 h
    exact ofInt?_eq_some_iff.1 hp ▸ .float ((x.integer?_eq_some_iff n).1 hn)
  | .scalar (.text t) => exact .text (ofText?_eq_some_iff.1 h)
  | .list _ => cases h
  | .tuple _ => cases h
  | .map _ => cases h
  | .value _ => cases h
  | .foreign _ => cases h

/-- **A precision is read from the arguments that give an integer in its range.** -/
theorem ofArgument?_eq_some_iff {a : Argument} {p : Precision} :
    ofArgument? a = some p ↔ a.GivesInteger p.digits := by
  refine ⟨givesInteger_of_ofArgument?, fun h => ?_⟩
  generalize hn : (p.digits : Int) = n at h
  cases h with
  | int n => exact ofInt?_eq_some_iff.2 hn.symm
  | bool b => exact ofInt?_eq_some_iff.2 hn.symm
  | float hx =>
    have hinteger := (Binary64.integer?_eq_some_iff _ n).2 hx
    exact Option.bind_eq_some_iff.2 ⟨n, hinteger, ofInt?_eq_some_iff.2 hn.symm⟩
  | text ht =>
    rw [← hn] at ht
    exact ofText?_eq_some_iff.2 ht

end Precision

end QueryTemplate
