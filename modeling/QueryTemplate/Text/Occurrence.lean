import QueryTemplate.Text.Basic

/-!
# Occurrences

Whether a pattern occurs in a text, and the text with its occurrences replaced. Replacement takes
occurrences from left to right without overlap, and never looks at what it has put in. The empty
pattern occurs before every character and at the end.
-/

namespace QueryTemplate.Text

def occursIn (pattern : Text) : Text → Bool
  | [] => pattern.isEmpty
  | c :: rest => pattern.isPrefixOf (c :: rest) || occursIn pattern rest

/-- Replaces the occurrences of a nonempty pattern; the first `skip` characters belong to an
occurrence that has been replaced already. -/
def replaceFrom (pattern replacement : Text) : Nat → Text → Text
  | _, [] => []
  | skip + 1, _ :: rest => replaceFrom pattern replacement skip rest
  | 0, c :: rest =>
    if pattern.isPrefixOf (c :: rest) then
      replacement ++ replaceFrom pattern replacement (pattern.length - 1) rest
    else c :: replaceFrom pattern replacement 0 rest

def replaceAll (pattern replacement t : Text) : Text :=
  if pattern.isEmpty then replacement ++ t.flatMap fun c => c :: replacement
  else replaceFrom pattern replacement 0 t

theorem occursIn_iff {pattern t : Text} : occursIn pattern t = true ↔ pattern <:+: t := by
  induction t with
  | nil => simp [occursIn, List.isEmpty_iff]
  | cons c rest ih =>
    rw [occursIn, Bool.or_eq_true, ih, List.isPrefixOf_iff_prefix, List.infix_cons_iff]

theorem replaceFrom_zero_of_not_occursIn {pattern replacement t : Text}
    (h : occursIn pattern t = false) : replaceFrom pattern replacement 0 t = t := by
  induction t with
  | nil => rfl
  | cons c rest ih =>
    simp only [occursIn, Bool.or_eq_false_iff] at h
    simp [replaceFrom, h.1, ih h.2]

theorem replaceAll_of_not_occursIn {pattern replacement t : Text}
    (h : occursIn pattern t = false) : replaceAll pattern replacement t = t := by
  have hp : pattern.isEmpty = false := by
    cases pattern with
    | nil => cases t <;> simp [occursIn] at h
    | cons => rfl
  simp [replaceAll, hp, replaceFrom_zero_of_not_occursIn h]

end QueryTemplate.Text
