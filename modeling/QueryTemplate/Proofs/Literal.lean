import QueryTemplate.Escape.Escaper

/-!
# Reading string literals back

Two readers of string literals, one for each way of escaping, and the proof that they undo the
built-in escapers: a literal reads as the string it was made from, and it ends at its own closing
quote (`read_quote`). The readers know nothing of the escapers.
-/

namespace QueryTemplate

namespace Literal

/-! ## The readers -/

def unescaped : Char → Char
  | '0' => '\x00'
  | 'n' => '\n'
  | 'r' => '\r'
  | 'Z' => '\x1a'
  | c => c

/-- The rest of a literal whose opening quote is read, where a backslash protects the next
character: the string up to the closing quote, and what follows the quote. -/
def insideEscaped? : Text → Option (Text × Text)
  | [] => none
  | '\\' :: [] => none
  | '\\' :: c :: rest => (insideEscaped? rest).map fun (s, rest) => (unescaped c :: s, rest)
  | '\'' :: '\'' :: rest => (insideEscaped? rest).map fun (s, rest) => ('\'' :: s, rest)
  | '\'' :: rest => some ([], rest)
  | c :: rest => (insideEscaped? rest).map fun (s, rest) => (c :: s, rest)

/-- The rest of a literal whose opening quote is read, where only a doubled quote is special. -/
def insideStandard? : Text → Option (Text × Text)
  | [] => none
  | '\'' :: '\'' :: rest => (insideStandard? rest).map fun (s, rest) => ('\'' :: s, rest)
  | '\'' :: rest => some ([], rest)
  | c :: rest => (insideStandard? rest).map fun (s, rest) => (c :: s, rest)

/-- The literal at the start of a text, in the syntax of MySQL, and the rest. -/
def readEscaped? : Text → Option (Text × Text)
  | '\'' :: rest => insideEscaped? rest
  | _ => none

/-- The literal at the start of a text, in the syntax of standard SQL, and the rest. -/
def readStandard? : Text → Option (Text × Text)
  | '\'' :: rest => insideStandard? rest
  | _ => none

/-! ## Steps of the readers -/

theorem insideEscaped?_close {rest : Text} (h : rest.head? ≠ some '\'') :
    insideEscaped? ('\'' :: rest) = some ([], rest) := by
  rw [insideEscaped?]
  rintro r rfl
  exact h rfl

theorem insideStandard?_close {rest : Text} (h : rest.head? ≠ some '\'') :
    insideStandard? ('\'' :: rest) = some ([], rest) := by
  rw [insideStandard?]
  rintro r rfl
  exact h rfl

theorem insideEscaped?_cons {c : Char} (hb : c ≠ '\\') (hq : c ≠ '\'') (rest : Text) :
    insideEscaped? (c :: rest) = (insideEscaped? rest).map fun (s, rest) => (c :: s, rest) := by
  rw [insideEscaped?.eq_def]
  split <;> simp_all

theorem insideStandard?_cons {c : Char} (hq : c ≠ '\'') (rest : Text) :
    insideStandard? (c :: rest) = (insideStandard? rest).map fun (s, rest) => (c :: s, rest) := by
  rw [insideStandard?.eq_def]
  split <;> simp_all

end Literal

namespace EscapeStyle

/-- A character is written behind a backslash, in a form that stands for it, or it is written as it
is and has no meaning of its own. -/
theorem backslashed_cases (c : Char) :
    (∃ e, backslashed c = ['\\', e] ∧ Literal.unescaped e = c ∧
      e ∉ ['\x00', '\n', '\r', '\x1a']) ∨
    (backslashed c = [c] ∧ c ∉ ['\\', '\'', '\x00', '\n', '\r', '\x1a']) := by
  unfold backslashed
  split
  case h_8 h0 h1 h2 h3 h4 h5 h6 =>
    right
    simp_all
  all_goals
    left
    exact ⟨_, rfl, rfl, by decide⟩

open Literal

theorem insideEscaped?_escape (s : Text) {rest : Text} (h : rest.head? ≠ some '\'') :
    insideEscaped? (backslash.escape s ++ '\'' :: rest) = some (s, rest) := by
  induction s with
  | nil => exact insideEscaped?_close h
  | cons c s ih =>
    have hs : backslash.escape (c :: s) = backslashed c ++ backslash.escape s := rfl
    rw [hs, List.append_assoc]
    rcases backslashed_cases c with ⟨e, he, hc, -⟩ | ⟨he, hc⟩
    · rw [he]
      simp [insideEscaped?, ih, hc]
    · simp only [List.mem_cons, not_or] at hc
      rw [he, List.cons_append, List.nil_append, insideEscaped?_cons hc.1 hc.2.1, ih]
      rfl

theorem insideStandard?_escape (s : Text) {rest : Text} (h : rest.head? ≠ some '\'') :
    insideStandard? (doubledQuote.escape s ++ '\'' :: rest) = some (s, rest) := by
  induction s with
  | nil => exact insideStandard?_close h
  | cons c s ih =>
    have hs : doubledQuote.escape (c :: s) = doubledQuote.char c ++ doubledQuote.escape s := rfl
    rw [hs, List.append_assoc]
    by_cases hc : c = '\''
    · simp [char, hc, insideStandard?, ih]
    · rw [char, if_neg hc, List.cons_append, List.nil_append, insideStandard?_cons hc, ih]
      rfl

theorem not_mem_escape_backslash (s : Text) :
    ∀ c ∈ backslash.escape s, c ∉ ['\x00', '\n', '\r', '\x1a'] := by
  intro c hc
  obtain ⟨d, -, hd⟩ := List.mem_flatMap.1 hc
  change c ∈ backslashed d at hd
  rcases backslashed_cases d with ⟨e, he, -, hn⟩ | ⟨he, hn⟩
  · rw [he, List.mem_cons, List.mem_singleton] at hd
    rcases hd with rfl | rfl
    · decide
    · exact hn
  · rw [he, List.mem_singleton] at hd
    subst hd
    simp_all

end EscapeStyle

open Literal

/-- **Literals read back.** What a built-in escaper quotes reads as the string that was quoted, and
the reader stops right behind it; backslash escapes leave no control character in the text. -/
theorem read_quote (s rest : Text) (hrest : rest.head? ≠ some '\'') :
    (∃ q, (Escaper.builtin .mysql).quote s = .ok q ∧
      readEscaped? (q ++ rest) = some (s, rest)) ∧
    (∀ b ∈ [Builtin.standard, .sqlite, .postgresql], ∃ q, (Escaper.builtin b).quote s = .ok q ∧
      readStandard? (q ++ rest) = some (s, rest)) ∧
    ∃ raw, (Escaper.builtin .mysql).escape s = .ok raw ∧
      ∀ c ∈ raw, c ≠ '\x00' ∧ c ≠ '\n' ∧ c ≠ '\r' ∧ c ≠ '\x1a' := by
  refine ⟨⟨_, rfl, ?_⟩, ?_, ⟨_, rfl, ?_⟩⟩
  · simp only [EscapeStyle.quote, Builtin.style, List.cons_append, List.append_assoc,
      List.nil_append, readEscaped?]
    exact EscapeStyle.insideEscaped?_escape s hrest
  · intro b hb
    have hstyle : b.style = .doubledQuote := by
      simp only [List.mem_cons, List.not_mem_nil, or_false] at hb
      rcases hb with rfl | rfl | rfl <;> rfl
    refine ⟨_, rfl, ?_⟩
    simp only [EscapeStyle.quote, hstyle, List.cons_append, List.append_assoc, List.nil_append,
      readStandard?]
    exact EscapeStyle.insideStandard?_escape s hrest
  · intro c hc
    have hn := EscapeStyle.not_mem_escape_backslash s c hc
    simpa using hn

/-- A backslash before the closing quote, and another literal right behind a comma. -/
theorem read_quote_backslash :
    [',', '\''].head? ≠ some '\'' ∧
      ∃ q, (Escaper.builtin .mysql).quote ['a', '\'', '\\'] = .ok q ∧
        readEscaped? (q ++ [',', '\'']) = some (['a', '\'', '\\'], [',', '\'']) :=
  ⟨by decide, (read_quote ['a', '\'', '\\'] [',', '\''] (by decide)).1⟩

end QueryTemplate
