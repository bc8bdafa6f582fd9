import Mathlib.Data.List.Basic
import QueryTemplate.Proofs.Pairing
import QueryTemplate.Query.Collapse

/-!
# The text between the passes

Between the two passes of a build, a skip is spelled by the skip marker. Here that text is a list of
tokens: characters, and skips as such. As long as no character is NUL, the second pass sees exactly
the tokens (`collapse_text`): it drops the fragments that hold a skip and spells every other skip
with the skip literal. So the skip marker of a nonce is as good as any other.
-/

namespace QueryTemplate

/-- A character of the text between the passes, or a skip. -/
inductive Token where
  | char (c : Char)
  | skip
deriving DecidableEq

namespace Token

def brace? : Token → Option Brace
  | char c => Brace.ofChar? c
  | skip => none

def isSkip : Token → Bool
  | char _ => false
  | skip => true

def text (skipText : Text) : Token → Text
  | char c => [c]
  | skip => skipText

def ofText (t : Text) : List Token := t.map char

/-- Tokens without their fragments: those that hold a skip are dropped, the others lose their
braces. -/
def collapse (ts : List Token) : List Token :=
  (Segment.ofList brace? ts).flatMap (Segment.survivors isSkip)

end Token

/-! ## Skip markers -/

namespace Nonce

/-- A skip marker without the two NUL characters around it. -/
def name (nonce : Nonce) : Text :=
  "skip:".toList ++ nonce.toList.map fun d => Nat.digitChar d.val

theorem skipMarker_eq (nonce : Nonce) : nonce.skipMarker = '\x00' :: (nonce.name ++ ['\x00']) := by
  simp [skipMarker, name]

theorem mem_name {nonce : Nonce} {c : Char} (h : c ∈ nonce.name) :
    c ≠ '\x00' ∧ c ≠ '\'' ∧ Brace.ofChar? c = none := by
  have hdigit : ∀ d : Fin 16, Nat.digitChar d.val ≠ '\x00' ∧ Nat.digitChar d.val ≠ '\'' ∧
      Brace.ofChar? (Nat.digitChar d.val) = none := by decide
  have hlabel : ∀ c ∈ "skip:".toList, c ≠ '\x00' ∧ c ≠ '\'' ∧ Brace.ofChar? c = none := by
    simp [Brace.ofChar?]
  rcases List.mem_append.1 h with h | h
  · exact hlabel c h
  · obtain ⟨d, -, rfl⟩ := List.mem_map.1 h
    exact hdigit d

theorem mem_skipMarker {nonce : Nonce} {c : Char} (h : c ∈ nonce.skipMarker) :
    c ≠ '\'' ∧ Brace.ofChar? c = none := by
  rw [skipMarker_eq, List.mem_cons, List.mem_append, List.mem_singleton] at h
  rcases h with rfl | h | rfl
  · decide
  · exact (mem_name h).2
  · decide

theorem nul_mem_skipMarker (nonce : Nonce) : '\x00' ∈ nonce.skipMarker := by
  simp [skipMarker_eq]

end Nonce

/-! ## Texts of tokens -/

namespace Token

variable {nonce : Nonce} {ts : List Token}

theorem flatMap_text_ofText (literal t : Text) : (ofText t).flatMap (text literal) = t := by
  rw [ofText, List.flatMap_map]
  exact List.flatMap_singleton' t

theorem any_isSkip_ofText (t : Text) : (ofText t).any isSkip = false := by
  simp [ofText, isSkip]

theorem faithful_text (nonce : Nonce) (t : Token) :
    Segment.Faithful brace? Brace.ofChar? (text nonce.skipMarker) t := by
  cases t with
  | char c =>
    unfold Segment.Faithful
    simp only [brace?, text]
    cases h : Brace.ofChar? c with
    | none =>
      intro d hd
      rwa [List.mem_singleton.1 hd]
    | some b => exact ⟨c, rfl, h⟩
  | skip => exact fun c hc => (Nonce.mem_skipMarker hc).2

theorem occursIn_text (hts : char '\x00' ∉ ts) :
    Text.occursIn nonce.skipMarker (ts.flatMap (text nonce.skipMarker)) = ts.any isSkip := by
  rw [Bool.eq_iff_iff, Text.occursIn_iff, List.any_eq_true]
  constructor
  · intro h
    obtain ⟨t, ht, hc⟩ := List.mem_flatMap.1 (h.subset nonce.nul_mem_skipMarker)
    cases t with
    | char c => exact absurd (List.mem_singleton.1 hc ▸ ht) hts
    | skip => exact ⟨skip, ht, rfl⟩
  · rintro ⟨t, ht, hs⟩
    cases t with
    | char c => simp [isSkip] at hs
    | skip =>
      obtain ⟨a, b, rfl⟩ := List.append_of_mem ht
      exact ⟨a.flatMap (text nonce.skipMarker), b.flatMap (text nonce.skipMarker), by simp [text]⟩

theorem replaceFrom_length_append (pattern replacement xs ys : Text) :
    Text.replaceFrom pattern replacement xs.length (xs ++ ys) =
      Text.replaceFrom pattern replacement 0 ys := by
  induction xs with
  | nil => rfl
  | cons c xs ih => rw [List.length_cons, List.cons_append, Text.replaceFrom, ih]

theorem replaceFrom_pattern_append (c : Char) (tail replacement rest : Text) :
    Text.replaceFrom (c :: tail) replacement 0 (c :: tail ++ rest) =
      replacement ++ Text.replaceFrom (c :: tail) replacement 0 rest := by
  have hp : (c :: tail).isPrefixOf (c :: (tail ++ rest)) = true := by simp
  rw [List.cons_append, Text.replaceFrom, if_pos hp, List.length_cons, Nat.add_sub_cancel,
    replaceFrom_length_append]

theorem replaceFrom_text (literal : Text) (hts : char '\x00' ∉ ts) :
    Text.replaceFrom nonce.skipMarker literal 0 (ts.flatMap (text nonce.skipMarker)) =
      ts.flatMap (text literal) := by
  induction ts with
  | nil => rfl
  | cons t ts ih =>
    have ih := ih fun h => hts (List.mem_cons_of_mem _ h)
    cases t with
    | char c =>
      have hc : ('\x00' == c) = false := by
        simpa using fun h : '\x00' = c => hts (h ▸ List.mem_cons_self)
      have hp : ∀ rest, nonce.skipMarker.isPrefixOf (c :: rest) = false := by
        intro rest
        rw [Nonce.skipMarker_eq, List.isPrefixOf, hc, Bool.false_and]
      simp only [List.flatMap_cons, text, List.singleton_append, Text.replaceFrom, hp, ih]
      rfl
    | skip =>
      simp only [List.flatMap_cons, text]
      rw [← ih, Nonce.skipMarker_eq, replaceFrom_pattern_append]

theorem replaceAll_text (literal : Text) (hts : char '\x00' ∉ ts) :
    Text.replaceAll nonce.skipMarker literal (ts.flatMap (text nonce.skipMarker)) =
      ts.flatMap (text literal) := by
  have hne : nonce.skipMarker.isEmpty = false := by simp [Nonce.skipMarker_eq]
  rw [Text.replaceAll, hne]
  exact replaceFrom_text literal hts

end Token

/-! ## The second pass -/

namespace Context

variable {ctx : Context} {nonce : Nonce} {ts : List Token}

open Token

theorem segments_text (ts : List Token) :
    segments (ts.flatMap (text nonce.skipMarker)) =
      (Segment.ofList brace? ts).flatMap (Segment.expand (text nonce.skipMarker)) :=
  Segment.ofList_flatMap fun t _ => faithful_text nonce t

theorem collapsed_expand {s : Segment Token} (hs : char '\x00' ∉ s.content) :
    (Segment.expand (text nonce.skipMarker) s).flatMap (Segment.collapsed nonce.skipMarker) =
      (Segment.survivors isSkip s).flatMap (text nonce.skipMarker) := by
  cases s with
  | plain t => simp [Segment.expand, Segment.survivors, Segment.collapsed, List.flatMap_map]
  | fragment inner =>
    have hany : Text.occursIn nonce.skipMarker (inner.flatMap (text nonce.skipMarker)) =
        inner.any isSkip := occursIn_text hs
    simp only [Segment.expand, List.flatMap_cons, List.flatMap_nil, List.append_nil,
      Segment.collapsed, Segment.survivors, hany]
    split <;> rfl

theorem collapseFragments_text (hctx : ctx.skipMarker = nonce.skipMarker)
    (hts : char '\x00' ∉ ts) :
    ctx.collapseFragments (ts.flatMap (text nonce.skipMarker)) =
      (Token.collapse ts).flatMap (text nonce.skipMarker) := by
  rw [collapseFragments, hctx, segments_text, Token.collapse, List.flatMap_assoc,
    List.flatMap_assoc]
  apply List.flatMap_congr
  intro s hs
  apply collapsed_expand
  intro h
  exact hts (Segment.mem_of_mem_content hs h)

/-- **The second pass sees the tokens.** The skip marker only carries the skips. -/
theorem collapse_text (hctx : ctx.skipMarker = nonce.skipMarker) (hts : char '\x00' ∉ ts)
    (tally : Tally) :
    (ctx.collapse tally (ts.flatMap (text nonce.skipMarker))).text =
      (Token.collapse ts).flatMap (text ctx.settings.skipLiteral) := by
  rw [collapse, collapseFragments_text hctx hts, hctx]
  exact replaceAll_text _ fun h => hts (Segment.mem_of_mem_survivors h)

end Context

end QueryTemplate
