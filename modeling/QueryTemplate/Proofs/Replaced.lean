import QueryTemplate.Proofs.Token
import QueryTemplate.Settings.Reading

/-!
# Replaced skip markers

No finished query holds the skip marker, whatever text the second pass is given
(`skipMarker_not_infix_collapse`). Taking braces and fragments away can join the parts of a skip
marker, but the replacement comes after that and joins nothing: a skip literal without NUL neither
begins nor ends a skip marker, and one that is no part of the skip marker does not lie inside it.
-/

namespace QueryTemplate

namespace Text

variable {pattern replacement t w : Text}

/-! ## How a replacement goes on -/

theorem replaceFrom_hit (hne : pattern ≠ []) (rest : Text) :
    replaceFrom pattern replacement 0 (pattern ++ rest) =
      replacement ++ replaceFrom pattern replacement 0 rest := by
  cases pattern with
  | nil => exact absurd rfl hne
  | cons c tail => exact Token.replaceFrom_pattern_append c tail replacement rest

theorem replaceFrom_miss {c : Char} {rest : Text} (h : ¬pattern <+: c :: rest) :
    replaceFrom pattern replacement 0 (c :: rest) =
      c :: replaceFrom pattern replacement 0 rest := by
  rw [← List.isPrefixOf_iff_prefix] at h
  rw [replaceFrom, if_neg h]

/-- **The ways in which a text can begin for a replacement.** It is empty, or it begins with the
pattern, or with a character at which the pattern does not begin. -/
theorem replacement_induction {motive : Text → Prop} (hne : pattern ≠ []) (nil : motive [])
    (hit : ∀ rest, motive rest → motive (pattern ++ rest))
    (miss : ∀ c rest, ¬pattern <+: c :: rest → motive rest → motive (c :: rest))
    (t : Text) : motive t := by
  -- a pattern is longer than one character, so the induction is on the length
  suffices h : ∀ n t, t.length ≤ n → motive t from h t.length t (Nat.le_refl _)
  intro n
  induction n with
  | zero =>
    intro t hn
    rw [List.eq_nil_of_length_eq_zero (Nat.le_zero.1 hn)]
    exact nil
  | succ n ih =>
    intro t hn
    match t with
    | [] => exact nil
    | c :: rest =>
      by_cases h : pattern <+: c :: rest
      · obtain ⟨tail, htail⟩ := h
        have hlength := congrArg List.length htail
        have hpos : 0 < pattern.length := List.length_pos_of_ne_nil hne
        rw [List.length_append] at hlength
        rw [← htail]
        exact hit tail (ih tail (by omega))
      · exact miss c rest h (ih rest (by simpa using hn))

/-! ## What a replacement leaves -/

theorem infix_of_infix_append {xs ys : Text} (hne : w ≠ []) (hhead : ∀ d ∈ w.head?, d ∉ xs)
    (h : w <:+: xs ++ ys) : w <:+: ys := by
  induction xs with
  | nil => exact h
  | cons x xs ih =>
    rw [List.cons_append, List.infix_cons_iff] at h
    rcases h with h | h
    · obtain ⟨c, w', rfl⟩ := List.exists_cons_of_ne_nil hne
      obtain ⟨rfl, -⟩ := List.cons_prefix_cons.1 h
      exact absurd List.mem_cons_self (hhead c rfl)
    · exact ih (fun d hd hmem => hhead d hd (List.mem_cons_of_mem _ hmem)) h

/-- What a text begins with after a replacement, it began with before, unless a replacement lies
inside it or holds its last character. -/
theorem prefix_of_prefix_replaceFrom (hne : pattern ≠ [])
    (hlast : ∀ d ∈ w.getLast?, d ∉ replacement) (hnot : ¬replacement <:+: w)
    (h : w <+: replaceFrom pattern replacement 0 t) : w <+: t := by
  induction t using replacement_induction hne generalizing w with
  | nil => exact h
  | hit rest ih =>
    rw [replaceFrom_hit hne] at h
    rcases List.prefix_or_prefix_of_prefix h (List.prefix_append replacement _) with h' | h'
    · rcases List.eq_nil_or_concat w with rfl | ⟨front, d, rfl⟩
      · exact List.nil_prefix
      · have hd : d ∈ replacement := h'.subset (by simp)
        exact absurd hd (hlast d (by simp))
    · exact absurd h'.isInfix hnot
  | miss c rest hc ih =>
    rw [replaceFrom_miss hc, List.prefix_cons_iff] at h
    rcases h with rfl | ⟨w', rfl, h⟩
    · exact List.nil_prefix
    · have hlast' : ∀ d ∈ w'.getLast?, d ∉ replacement := by
        intro d hd
        apply hlast d
        cases w' with
        | nil => simp at hd
        | cons e w' => rwa [List.getLast?_cons_cons]
      have hnot' : ¬replacement <:+: w' := fun h' => hnot (h'.trans (List.suffix_cons c w').isInfix)
      exact List.cons_prefix_cons.2 ⟨rfl, ih hlast' hnot' h⟩

/-- **A replaced pattern is gone**, if the replacement lies neither inside the pattern nor across
one of its ends. -/
theorem not_infix_replaceAll (hne : pattern ≠ []) (hhead : ∀ d ∈ pattern.head?, d ∉ replacement)
    (hlast : ∀ d ∈ pattern.getLast?, d ∉ replacement) (hnot : ¬replacement <:+: pattern)
    (t : Text) : ¬pattern <:+: replaceAll pattern replacement t := by
  have hempty : pattern.isEmpty = false := by simpa using hne
  rw [replaceAll, hempty]
  simp only [Bool.false_eq_true, if_false]
  induction t using replacement_induction hne with
  | nil => exact fun h => hne (List.infix_nil.1 h)
  | hit rest ih =>
    rw [replaceFrom_hit hne]
    exact fun h => ih (infix_of_infix_append hne hhead h)
  | miss c rest hc ih =>
    intro h
    rw [replaceFrom_miss hc, List.infix_cons_iff, ← replaceFrom_miss hc] at h
    rcases h with h | h
    · exact hc (prefix_of_prefix_replaceFrom hne hlast hnot h)
    · exact ih h

end Text

/-! ## The second pass -/

/-- A skip marker between two NUL characters, and a skip literal that is no part of it. -/
structure SkipMarkerApart (skipMarker literal : Text) : Prop where
  head : skipMarker.head? = some '\x00'
  last : skipMarker.getLast? = some '\x00'
  nul : '\x00' ∉ literal
  not_infix : ¬literal <:+: skipMarker

theorem Nonce.skipMarkerApart (nonce : Nonce) :
    SkipMarkerApart nonce.skipMarker Settings.default.skipLiteral := by
  have hcapital : 'S' ∉ nonce.skipMarker := by
    have hdigit : ∀ d : Fin 16, Nat.digitChar d.val ≠ 'S' := by decide
    simp [Nonce.skipMarker, hdigit]
  refine ⟨by simp [Nonce.skipMarker], ?_, by decide, fun h => ?_⟩
  · rw [Nonce.skipMarker_eq, ← List.cons_append, List.getLast?_concat]
  · exact hcapital (h.subset (by decide))

namespace Context

/-- **No skip marker is left.** Whatever the text is, and whatever was collapsed before it, the
second pass leaves no skip marker in it, and where none is to be replaced it only collapses
fragments. The skip markers of all nonces stand apart from the default skip literal. -/
theorem skipMarker_not_infix_collapse (ctx : Context)
    (hapart : SkipMarkerApart ctx.skipMarker ctx.settings.skipLiteral) (tally : Tally) (t : Text) :
    ¬ctx.skipMarker <:+: (ctx.collapse tally t).text ∧
      (¬ctx.skipMarker <:+: ctx.collapseFragments t →
        (ctx.collapse tally t).text = ctx.collapseFragments t) ∧
      ∀ nonce : Nonce, SkipMarkerApart nonce.skipMarker Settings.default.skipLiteral := by
  have hne : ctx.skipMarker ≠ [] := by
    intro h
    simpa [h] using hapart.head
  have hhead : ∀ d ∈ ctx.skipMarker.head?, d ∉ ctx.settings.skipLiteral := by
    intro d hd
    rw [hapart.head, Option.mem_some_iff] at hd
    exact hd ▸ hapart.nul
  have hlast : ∀ d ∈ ctx.skipMarker.getLast?, d ∉ ctx.settings.skipLiteral := by
    intro d hd
    rw [hapart.last, Option.mem_some_iff] at hd
    exact hd ▸ hapart.nul
  refine ⟨?_, fun hnone => ?_, Nonce.skipMarkerApart⟩
  · exact Text.not_infix_replaceAll hne hhead hlast hapart.not_infix _
  · rw [← Text.occursIn_iff, Bool.not_eq_true] at hnone
    exact Text.replaceAll_of_not_occursIn hnone

/-- Dropping the fragment joins the text around it to a new skip marker, which is replaced. -/
theorem skipMarker_not_infix_collapse_joined :
    (⟨.builtin .mysql, {}, ['\x00', 'a', '\x00']⟩ : Context).collapseFragments
        ['\x00', '{', '\x00', 'a', '\x00', '}', 'a', '\x00'] = ['\x00', 'a', '\x00'] ∧
      ¬['\x00', 'a', '\x00'] <:+:
        ((⟨.builtin .mysql, {}, ['\x00', 'a', '\x00']⟩ : Context).collapse {}
          ['\x00', '{', '\x00', 'a', '\x00', '}', 'a', '\x00']).text := by
  refine ⟨by decide, (skipMarker_not_infix_collapse ⟨.builtin .mysql, {}, ['\x00', 'a', '\x00']⟩
    ⟨rfl, rfl, by decide, ?_⟩ _ _).1⟩
  intro h
  exact absurd h.length_le (by decide)

end Context

end QueryTemplate
