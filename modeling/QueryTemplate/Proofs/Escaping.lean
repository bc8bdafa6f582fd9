import QueryTemplate.Proofs.Literal
import QueryTemplate.Proofs.Pairing

/-!
# Braces of escaped strings

The built-in escapers know nothing of fragments: they make no brace and hide none, so a string
literal has the braces of its string.
-/

namespace QueryTemplate

namespace Brace

theorem ofChar?_eq_opening {c : Char} : ofChar? c = some .opening ↔ c = '{' := by
  unfold ofChar?
  split
  · simp [*]
  · split <;> simp [*]

theorem ofChar?_eq_closing {c : Char} : ofChar? c = some .closing ↔ c = '}' := by
  unfold ofChar?
  split
  · rename_i h
    rw [h]
    decide
  · split <;> simp [*]

end Brace

namespace EscapeStyle

variable (style : EscapeStyle)

open Segment

theorem char_ne_nil (c : Char) : style.char c ≠ [] := by
  cases style with
  | backslash =>
    rcases backslashed_cases c with ⟨e, he, -⟩ | ⟨he, -⟩
    · simp [char, he]
    · simp [char, he]
  | doubledQuote =>
    rw [char]
    split <;> simp

/-- No escape makes a brace or hides one. -/
theorem faithful_char (c : Char) : Faithful Brace.ofChar? Brace.ofChar? style.char c := by
  unfold Faithful
  cases h : Brace.ofChar? c with
  | some k =>
    refine ⟨c, ?_, h⟩
    cases k with
    | opening => rw [Brace.ofChar?_eq_opening.1 h]; cases style <;> rfl
    | closing => rw [Brace.ofChar?_eq_closing.1 h]; cases style <;> rfl
  | none =>
    intro d hd
    cases style with
    | backslash =>
      change d ∈ backslashed c at hd
      rcases backslashed_cases c with ⟨e, he, hce, -⟩ | ⟨he, -⟩
      · rw [he, List.mem_cons, List.mem_singleton] at hd
        rcases hd with rfl | rfl
        · decide
        · -- a brace behind a backslash would stand for itself, so it would be `c`
          cases hk : Brace.ofChar? d with
          | none => rfl
          | some k =>
            cases k with
            | opening =>
              rw [Brace.ofChar?_eq_opening.1 hk] at hce
              rw [← hce] at h
              exact absurd h (by decide)
            | closing =>
              rw [Brace.ofChar?_eq_closing.1 hk] at hce
              rw [← hce] at h
              exact absurd h (by decide)
      · rw [he, List.mem_singleton] at hd
        rwa [hd]
    | doubledQuote =>
      change d ∈ if c = '\'' then ['\'', '\''] else [c] at hd
      split at hd
      · next hc =>
        have hd : d = '\'' := by simpa using hd
        rw [hd]
        decide
      · rwa [List.mem_singleton.1 hd]

theorem braces_escape (s : Text) :
    braces Brace.ofChar? (style.escape s) = braces Brace.ofChar? s :=
  braces_flatMap fun c _ => style.faithful_char c

theorem braces_quote (s : Text) :
    braces Brace.ofChar? (style.quote s) = braces Brace.ofChar? s := by
  have hquote : Brace.ofChar? '\'' = none := by decide
  rw [quote, List.cons_append, braces_cons_none hquote, braces_append, braces_escape,
    braces_cons_none hquote]
  exact List.append_nil _

end EscapeStyle

end QueryTemplate
