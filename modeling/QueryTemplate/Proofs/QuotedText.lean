import Mathlib.Algebra.Group.Nat.Defs
import Mathlib.Data.List.Basic
import QueryTemplate.Text.Quoted

/-!
# Quoted texts read back

A message shows a text in quotes. The reader of this module knows nothing of how a text is quoted:
it takes the spellings between two quotes one by one. What `quoted` writes spells the text that it
was made from and no other, and all of it is printable, so it stays on one line (`showsAs_quoted`).
-/

namespace QueryTemplate.Text

/-! ## The reader -/

def hexDigit? (c : Char) : Option Nat :=
  if c.isDigit then some (c.toNat - 48)
  else if 'a' ≤ c ∧ c ≤ 'f' then some (c.toNat - 87)
  else none

def hexValue (digits : Text) : Nat := digits.foldl (fun n c => 16 * n + (hexDigit? c).getD 0) 0

/-- The character of a code point in base 16, in exactly `width` digits, and the rest. -/
def readCodePoint? (width : Nat) (t : Text) : Option (Char × Text) :=
  let digits := t.take width
  if digits.length = width ∧ digits.all fun c => (hexDigit? c).isSome then
    some (.ofNat (hexValue digits), t.drop width)
  else none

/-- The first character that is spelled between two quotes `mark`, and the rest. -/
def readSpelling? (mark : Char) : Text → Option (Char × Text)
  | [] => none
  | ['\\'] => none
  | '\\' :: 'n' :: rest => some ('\n', rest)
  | '\\' :: 'r' :: rest => some ('\r', rest)
  | '\\' :: 't' :: rest => some ('\t', rest)
  | '\\' :: 'x' :: rest => readCodePoint? 2 rest
  | '\\' :: 'u' :: rest => readCodePoint? 4 rest
  | '\\' :: 'U' :: rest => readCodePoint? 8 rest
  | '\\' :: c :: rest => some (c, rest)
  | c :: rest => if c = mark then none else some (c, rest)

/-- What follows an opening quote `mark` spells a text, up to the closing quote at the end. -/
inductive Spells (mark : Char) : Text → Text → Prop where
  | close : Spells mark [mark] []
  | char {t rest s : Text} {c : Char} (h : readSpelling? mark t = some (c, rest))
    (hrest : Spells mark rest s) : Spells mark t (c :: s)

/-- A text is shown on one line, between quotes, and no other text is shown so. -/
structure ShowsAs (t shown : Text) : Prop where
  spells_iff : ∃ mark inside, mark = (if '\'' ∈ t ∧ '"' ∉ t then '"' else '\'') ∧
    shown = mark :: inside ∧ ∀ s, Spells mark inside s ↔ s = t
  printable : ∀ c ∈ shown, isPrintable c
  /-- What needs no escape has none. -/
  plain : (∀ c ∈ t, isPrintable c ∧ c ≠ '\'' ∧ c ≠ '\\') → shown = '\'' :: t ++ ['\'']

/-! ## Digits in base 16 -/

theorem mem_toDigits_sixteen {n : Nat} {c : Char} (h : c ∈ Nat.toDigits 16 n) :
    ∃ d : Fin 16, c = Nat.digitChar d := by
  induction n using Nat.strongRecOn with
  | ind n ih =>
    rw [Nat.toDigits_eq_if (by decide)] at h
    split at h
    · rename_i hn
      exact ⟨⟨n, hn⟩, List.mem_singleton.1 h⟩
    · rcases List.mem_append.1 h with h | h
      · exact ih (n / 16) (by omega) h
      · exact ⟨⟨n % 16, Nat.mod_lt _ (by decide)⟩, List.mem_singleton.1 h⟩

theorem mem_hex {width n : Nat} {c : Char} (h : c ∈ hex width n) :
    ∃ d : Fin 16, c = Nat.digitChar d := by
  rcases List.mem_append.1 h with h | h
  · exact ⟨0, List.eq_of_mem_replicate h⟩
  · exact mem_toDigits_sixteen h

theorem hexDigit?_digitChar : ∀ d : Fin 16, hexDigit? (Nat.digitChar d) = some d.val := by
  decide

theorem length_hex {width n : Nat} (hwidth : 0 < width) (h : n < 16 ^ width) :
    (hex width n).length = width := by
  have hle := (Nat.length_toDigits_le_iff (b := 16) (by decide) hwidth).2 h
  rw [hex, List.length_append, List.length_replicate]
  omega

theorem hexValue_append_singleton (digits : Text) (c : Char) :
    hexValue (digits ++ [c]) = 16 * hexValue digits + (hexDigit? c).getD 0 := by
  rw [hexValue, List.foldl_append]
  rfl

theorem hexValue_toDigits (n : Nat) : hexValue (Nat.toDigits 16 n) = n := by
  have hdigit : ∀ d < 16, (hexDigit? (Nat.digitChar d)).getD 0 = d := by
    intro d hd
    rw [hexDigit?_digitChar ⟨d, hd⟩]
    rfl
  induction n using Nat.strongRecOn with
  | ind n ih =>
    rw [Nat.toDigits_eq_if (by decide)]
    split
    · rename_i hn
      have hone := hexValue_append_singleton [] (Nat.digitChar n)
      rw [hdigit n hn] at hone
      exact hone.trans (Nat.zero_add n)
    · rw [hexValue_append_singleton, ih (n / 16) (by omega), hdigit _ (Nat.mod_lt _ (by decide))]
      omega

theorem hexValue_hex (width n : Nat) : hexValue (hex width n) = n := by
  have hzeros : ∀ k, (List.replicate k '0').foldl
      (fun n c => 16 * n + (hexDigit? c).getD 0) 0 = 0 := by
    intro k
    induction k with
    | zero => rfl
    | succ k ih => exact ih
  rw [hex, hexValue, List.foldl_append, hzeros]
  exact hexValue_toDigits n

theorem readCodePoint?_hex {width : Nat} {c : Char} (hwidth : 0 < width)
    (h : c.toNat < 16 ^ width) (rest : Text) :
    readCodePoint? width (hex width c.toNat ++ rest) = some (c, rest) := by
  have hlength := length_hex hwidth h
  have htake : (hex width c.toNat ++ rest).take width = hex width c.toNat :=
    List.take_left' hlength
  have hdrop : (hex width c.toNat ++ rest).drop width = rest := List.drop_left' hlength
  have hall : ∀ d ∈ hex width c.toNat, (hexDigit? d).isSome := by
    intro d hd
    obtain ⟨i, rfl⟩ := mem_hex hd
    rw [hexDigit?_digitChar]
    rfl
  rw [readCodePoint?, htake, hdrop, if_pos ⟨hlength, List.all_eq_true.2 hall⟩, hexValue_hex,
    Char.ofNat_toNat]

/-! ## Printable characters -/

theorem isPrintable_of_ascii {c : Char} (h : 32 ≤ c.toNat ∧ c.toNat ≤ 126) : isPrintable c := by
  have hruns : (unprintableRuns.all fun run => run.2 < 32 || 126 < run.1) = true := by
    decide +kernel
  rw [List.all_eq_true] at hruns
  rw [isPrintable, Bool.not_eq_true', List.any_eq_false]
  intro run hrun
  have hrun := hruns run hrun
  simp only [Bool.or_eq_true, decide_eq_true_eq] at hrun
  simp only [Bool.and_eq_true, decide_eq_true_eq]
  omega

theorem not_isPrintable_of_control {c : Char} (h : c.toNat < 32) : ¬isPrintable c := by
  have hfirst : (0, 31) ∈ unprintableRuns := List.mem_cons_self
  have hany : (unprintableRuns.any fun run =>
      decide (run.1 ≤ c.toNat) && decide (c.toNat ≤ run.2)) = true := by
    refine List.any_eq_true.2 ⟨_, hfirst, ?_⟩
    simp only [Bool.and_eq_true, decide_eq_true_eq]
    omega
  rw [isPrintable, hany]
  exact Bool.false_ne_true

/-! ## One character -/

def IsMark (mark : Char) : Prop := mark = '\'' ∨ mark = '"'

theorem IsMark.cases {mark c : Char} (h : IsMark mark) (hc : c = mark ∨ c = '\\') :
    c = '\'' ∨ c = '"' ∨ c = '\\' := by
  rcases h with rfl | rfl
  · exact hc.imp_right .inr
  · exact .inr hc

theorem readSpelling?_plain {mark c : Char} (hmark : c ≠ mark) (hbackslash : c ≠ '\\')
    (rest : Text) : readSpelling? mark (c :: rest) = some (c, rest) := by
  rw [readSpelling?.eq_def]
  split <;> simp_all

theorem quotedChar_plain {mark c : Char} (hmark : c ≠ mark) (hbackslash : c ≠ '\\')
    (hc : isPrintable c) : quotedChar mark c = [c] := by
  have hne : ∀ d : Char, d.toNat < 32 → c ≠ d := by
    rintro d hd rfl
    exact not_isPrintable_of_control hd hc
  rw [quotedChar, if_neg (not_or.2 ⟨hmark, hbackslash⟩), if_neg (hne _ (by decide)),
    if_neg (hne _ (by decide)), if_neg (hne _ (by decide)), if_pos hc]

theorem readSpelling?_mark {mark : Char} (h : IsMark mark) : readSpelling? mark [mark] = none := by
  rcases h with rfl | rfl <;> rfl

/-- The four forms in which one character is shown. The code points of the last form fit into the
widths: eight digits are enough for every character. -/
theorem quotedChar_cases (mark c : Char) :
    (quotedChar mark c = [c] ∧ c ≠ mark ∧ c ≠ '\\' ∧ isPrintable c) ∨
    (quotedChar mark c = ['\\', c] ∧ (c = mark ∨ c = '\\')) ∨
    (∃ e, quotedChar mark c = ['\\', e] ∧
      (e = 'n' ∧ c = '\n' ∨ e = 'r' ∧ c = '\r' ∨ e = 't' ∧ c = '\t')) ∨
    ∃ e width, quotedChar mark c = '\\' :: e :: hex width c.toNat ∧
      (e = 'x' ∧ width = 2 ∨ e = 'u' ∧ width = 4 ∨ e = 'U' ∧ width = 8) ∧
      c.toNat < 16 ^ width := by
  unfold quotedChar
  split
  · rename_i hc
    exact .inr (.inl ⟨rfl, hc⟩)
  · rename_i hc
    rw [not_or] at hc
    split
    · rename_i hc
      exact .inr (.inr (.inl ⟨'n', rfl, .inl ⟨rfl, hc⟩⟩))
    split
    · rename_i hc
      exact .inr (.inr (.inl ⟨'r', rfl, .inr (.inl ⟨rfl, hc⟩)⟩))
    split
    · rename_i hc
      exact .inr (.inr (.inl ⟨'t', rfl, .inr (.inr ⟨rfl, hc⟩)⟩))
    split
    · rename_i hprintable
      exact .inl ⟨rfl, hc.1, hc.2, hprintable⟩
    refine .inr (.inr (.inr ?_))
    split
    · exact ⟨'x', 2, rfl, .inl ⟨rfl, rfl⟩, by omega⟩
    split
    · exact ⟨'u', 4, rfl, .inr (.inl ⟨rfl, rfl⟩), by omega⟩
    · have hmax : c.toNat < 2 ^ 32 := c.val.toNat_lt
      exact ⟨'U', 8, rfl, .inr (.inr ⟨rfl, rfl⟩), by omega⟩

theorem readSpelling?_quotedChar {mark : Char} (h : IsMark mark) (c : Char) (rest : Text) :
    readSpelling? mark (quotedChar mark c ++ rest) = some (c, rest) := by
  rcases quotedChar_cases mark c with
    ⟨hshown, hmark, hbackslash, -⟩ | ⟨hshown, hc⟩ | ⟨e, hshown, hc⟩ | ⟨e, width, hshown, he, hfits⟩
  · rw [hshown]
    exact readSpelling?_plain hmark hbackslash rest
  · rw [hshown]
    rcases h.cases hc with rfl | rfl | rfl
    · rfl
    · rfl
    · rfl
  · rw [hshown]
    rcases hc with ⟨rfl, rfl⟩ | ⟨rfl, rfl⟩ | ⟨rfl, rfl⟩
    · rfl
    · rfl
    · rfl
  · rw [hshown]
    rcases he with ⟨rfl, rfl⟩ | ⟨rfl, rfl⟩ | ⟨rfl, rfl⟩
    · exact readCodePoint?_hex (by decide) hfits rest
    · exact readCodePoint?_hex (by decide) hfits rest
    · exact readCodePoint?_hex (by decide) hfits rest

theorem IsMark.isPrintable {mark : Char} (h : IsMark mark) : isPrintable mark := by
  rcases h with rfl | rfl <;> exact isPrintable_of_ascii (by decide)

theorem isPrintable_of_mem_quotedChar {mark c d : Char} (h : IsMark mark)
    (hd : d ∈ quotedChar mark c) : isPrintable d := by
  have hbackslash : isPrintable '\\' := isPrintable_of_ascii (by decide)
  have hdigit : ∀ i : Fin 16, 32 ≤ (Nat.digitChar i).toNat ∧ (Nat.digitChar i).toNat ≤ 126 := by
    decide
  rcases quotedChar_cases mark c with
    ⟨hshown, -, -, hc⟩ | ⟨hshown, hc⟩ | ⟨e, hshown, he⟩ | ⟨e, width, hshown, he, -⟩
  · rw [hshown, List.mem_singleton] at hd
    rwa [hd]
  · rw [hshown, List.mem_cons, List.mem_singleton] at hd
    rcases hd with rfl | rfl
    · exact hbackslash
    · rcases hc with rfl | rfl
      · exact h.isPrintable
      · exact hbackslash
  · rw [hshown, List.mem_cons, List.mem_singleton] at hd
    rcases hd with rfl | rfl
    · exact hbackslash
    · rcases he with ⟨rfl, -⟩ | ⟨rfl, -⟩ | ⟨rfl, -⟩ <;> exact isPrintable_of_ascii (by decide)
  · rw [hshown, List.mem_cons, List.mem_cons] at hd
    rcases hd with rfl | rfl | hd
    · exact hbackslash
    · rcases he with ⟨rfl, -⟩ | ⟨rfl, -⟩ | ⟨rfl, -⟩ <;> exact isPrintable_of_ascii (by decide)
    · obtain ⟨i, rfl⟩ := mem_hex hd
      exact isPrintable_of_ascii (hdigit i)

/-! ## Texts -/

theorem isMark_quoteMark (t : Text) : IsMark t.quoteMark := by
  unfold quoteMark
  split
  · exact .inr rfl
  · exact .inl rfl

theorem spells_quoted {mark : Char} (h : IsMark mark) (t : Text) :
    Spells mark (t.flatMap (quotedChar mark) ++ [mark]) t := by
  induction t with
  | nil => exact .close
  | cons c t ih =>
    rw [List.flatMap_cons, List.append_assoc]
    exact .char (readSpelling?_quotedChar h c _) ih

theorem Spells.unique {mark : Char} {inside s s' : Text} (hmark : IsMark mark)
    (h : Spells mark inside s) (h' : Spells mark inside s') : s = s' := by
  induction h generalizing s' with
  | close =>
    cases h' with
    | close => rfl
    | char hread =>
      rw [readSpelling?_mark hmark] at hread
      cases hread
  | char hread hrest ih =>
    cases h' with
    | close =>
      rw [readSpelling?_mark hmark] at hread
      cases hread
    | char hread' hrest' =>
      rw [hread] at hread'
      cases hread'
      rw [ih hrest']

theorem showsAs_quoted (t : Text) : ShowsAs t t.quoted where
  spells_iff := by
    have hmark := isMark_quoteMark t
    have hspells := spells_quoted hmark t
    refine ⟨t.quoteMark, _, by simp [quoteMark], rfl, fun s => ⟨fun hs => ?_, ?_⟩⟩
    · exact hs.unique hmark hspells
    · rintro rfl
      exact hspells
  printable := by
    have hmark := isMark_quoteMark t
    intro c hc
    rw [quoted, List.cons_append, List.mem_cons, List.mem_append, List.mem_singleton] at hc
    rcases hc with rfl | hc | rfl
    · exact hmark.isPrintable
    · obtain ⟨d, -, hd⟩ := List.mem_flatMap.1 hc
      exact isPrintable_of_mem_quotedChar hmark hd
    · exact hmark.isPrintable
  plain h := by
    have hmark : t.quoteMark = '\'' := by
      have hnot : '\'' ∉ t := fun hmem => (h _ hmem).2.1 rfl
      simp [quoteMark, hnot]
    have hsame : t.flatMap (quotedChar '\'') = t.flatMap ([·]) := by
      apply List.flatMap_congr
      intro c hc
      exact quotedChar_plain (h c hc).2.1 (h c hc).2.2 (h c hc).1
    rw [quoted, hmark, hsame, List.flatMap_singleton']

end QueryTemplate.Text
