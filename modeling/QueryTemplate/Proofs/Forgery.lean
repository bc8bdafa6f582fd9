import QueryTemplate.Proofs.Escaping
import QueryTemplate.Proofs.Woven

/-!
# Forged skips

A skip is told from data by the skip marker alone, and a caller's string may hold a skip marker.
Backslash escapes take the NUL out of it; doubled quotes leave it as it is. This module says exactly
when the second pass takes data for a skip (`forged_iff`): when the skip marker occurs in a string,
or is left in it once the braces that find a partner are gone.
-/

namespace QueryTemplate

open Segment

namespace Text

/-! ## Braces that stay -/

/-- Whether the first brace of a text closes; without a brace, whether the next one does. -/
def nextCloses (closes : Bool) (t : Text) : Bool :=
  match (braces Brace.ofChar? t).head? with
  | some k => k = .closing
  | none => closes

/-- Whether the last brace of a text opens; without a brace, whether the one before does. -/
def lastOpens (waiting : Bool) (t : Text) : Bool :=
  match (braces Brace.ofChar? t).getLast? with
  | some k => k = .opening
  | none => waiting

/-- A text without the braces that have a partner, when an opening brace is `waiting` before it and
the next brace behind it `closes`. -/
def unbraced (waiting closes : Bool) : Text → Text
  | [] => []
  | c :: rest =>
    match Brace.ofChar? c with
    | none => c :: unbraced waiting closes rest
    | some .opening => (if nextCloses closes rest then [] else [c]) ++ unbraced true closes rest
    | some .closing => (if waiting then [] else [c]) ++ unbraced false closes rest

variable {waiting closes : Bool} {xs ys t : Text}

theorem nextCloses_append (closes : Bool) (xs ys : Text) :
    nextCloses closes (xs ++ ys) = nextCloses (nextCloses closes ys) xs := by
  unfold nextCloses
  rw [braces_append]
  cases braces Brace.ofChar? xs with
  | nil => rfl
  | cons k ks => rfl

theorem lastOpens_append (waiting : Bool) (xs ys : Text) :
    lastOpens waiting (xs ++ ys) = lastOpens (lastOpens waiting xs) ys := by
  unfold lastOpens
  rw [braces_append, List.getLast?_append]
  cases (braces Brace.ofChar? ys).getLast? with
  | none => rfl
  | some k => rfl

theorem lastOpens_cons_some {c : Char} {k : Brace} (hc : Brace.ofChar? c = some k) (t : Text) :
    lastOpens waiting (c :: t) = lastOpens (k = .opening) t := by
  have hone : lastOpens waiting [c] = (k = .opening : Bool) := by
    rw [lastOpens, braces_cons_some hc]
    rfl
  rw [← hone, ← lastOpens_append]
  rfl

theorem lastOpens_cons_none {c : Char} (hc : Brace.ofChar? c = none) (t : Text) :
    lastOpens waiting (c :: t) = lastOpens waiting t := by
  rw [lastOpens, braces_cons_none hc]
  rfl

/-- A cut: the part before it is read with what follows, the part behind it with what comes
first. -/
theorem unbraced_append (waiting closes : Bool) (xs ys : Text) :
    unbraced waiting closes (xs ++ ys) =
      unbraced waiting (nextCloses closes ys) xs ++ unbraced (lastOpens waiting xs) closes ys := by
  induction xs generalizing waiting with
  | nil => rfl
  | cons c xs ih =>
    rw [List.cons_append, unbraced, unbraced]
    cases hc : Brace.ofChar? c with
    | none =>
      simp only
      rw [ih, lastOpens_cons_none hc]
      rfl
    | some k =>
      rw [lastOpens_cons_some hc]
      cases k with
      | opening =>
        simp only
        rw [ih, nextCloses_append, List.append_assoc]
        rfl
      | closing =>
        simp only
        rw [ih, List.append_assoc]
        rfl

theorem unbraced_braceless (h : Braceless Brace.ofChar? t) : unbraced waiting closes t = t := by
  induction t with
  | nil => rfl
  | cons c t ih =>
    have ih := ih fun d hd => h d (List.mem_cons_of_mem _ hd)
    rw [unbraced, h c List.mem_cons_self]
    simp only
    rw [ih]

theorem unbraced_of_not_startsClosed (h : ¬StartsClosed Brace.ofChar? t) :
    unbraced waiting closes t = unbraced false closes t := by
  induction t with
  | nil => rfl
  | cons c t ih =>
    rw [unbraced, unbraced]
    cases hc : Brace.ofChar? c with
    | none =>
      simp only
      rw [ih (by rwa [StartsClosed, ← braces_cons_none hc])]
    | some k =>
      cases k with
      | opening => rfl
      | closing =>
        rw [StartsClosed, braces_cons_some hc] at h
        exact absurd rfl h

theorem flatMap_content_eq (t : Text) :
    (ofList Brace.ofChar? t).flatMap content = unbraced false false t := by
  induction t using pairing_induction Brace.ofChar? with
  | nil => rfl
  | element c xs hc ih =>
    rw [ofList_cons_of_ne_opening hc, List.flatMap_cons, ih, unbraced]
    cases hk : Brace.ofChar? c with
    | none => rfl
    | some k =>
      cases k with
      | opening => exact absurd hk hc
      | closing => rfl
  | unpaired o xs ho hx ih =>
    have hnext : nextCloses false xs = false := by
      rw [nextCloses]
      split
      · rename_i k hk
        cases k with
        | opening => rfl
        | closing => exact absurd hk hx
      · rfl
    have hwait : unbraced true false xs = unbraced false false xs :=
      unbraced_of_not_startsClosed hx
    rw [ofList_unpaired ho hx, List.flatMap_cons, ih, unbraced, ho]
    simp only
    rw [hnext, hwait]
    rfl
  | pair o b c y ho hb hc ih =>
    have hnext : nextCloses false (b ++ c :: y) = true := by
      rw [nextCloses, braces_append, braces_eq_nil_iff.2 hb, braces_cons_some hc]
      rfl
    have hlast : lastOpens true b = true := by
      rw [lastOpens, braces_eq_nil_iff.2 hb]
      rfl
    rw [ofList_pair ho hb hc, List.flatMap_cons, ih, unbraced, ho]
    simp only
    rw [hnext, unbraced_append, unbraced_braceless hb, hlast, unbraced, hc]
    rfl

theorem mem_of_mem_unbraced {c : Char} (h : c ∈ unbraced waiting closes t) : c ∈ t := by
  induction t generalizing waiting with
  | nil => exact h
  | cons d t ih =>
    rw [unbraced] at h
    rw [List.mem_cons]
    split at h
    · rcases List.mem_cons.1 h with h | h
      · exact .inl h
      · exact .inr (ih h)
    · rcases List.mem_append.1 h with h | h
      · split at h
        · simp at h
        · exact .inl (List.mem_singleton.1 h)
      · exact .inr (ih h)
    · rcases List.mem_append.1 h with h | h
      · split at h
        · simp at h
        · exact .inl (List.mem_singleton.1 h)
      · exact .inr (ih h)

theorem unbraced_escape (waiting closes : Bool) (s : Text) :
    unbraced waiting closes (EscapeStyle.doubledQuote.escape s) =
      EscapeStyle.doubledQuote.escape (unbraced waiting closes s) := by
  induction s generalizing waiting with
  | nil => rfl
  | cons c s ih =>
    have hcons : ∀ (c : Char) (s : Text), EscapeStyle.doubledQuote.escape (c :: s) =
        EscapeStyle.doubledQuote.char c ++ EscapeStyle.doubledQuote.escape s := fun _ _ => rfl
    have hnext : nextCloses closes (EscapeStyle.doubledQuote.escape s) = nextCloses closes s := by
      rw [nextCloses, EscapeStyle.braces_escape, ← nextCloses]
    by_cases hc : c = '\''
    · have hnone : Brace.ofChar? '\'' = none := by decide
      have hquotes : EscapeStyle.doubledQuote.char '\'' = ['\'', '\''] := rfl
      rw [hc, hcons, hquotes, List.cons_append, List.cons_append, List.nil_append]
      simp only [unbraced, hnone]
      rw [ih, hcons, hquotes]
      rfl
    · have hsingle : EscapeStyle.doubledQuote.char c = [c] := if_neg hc
      rw [hcons, hsingle, List.singleton_append, unbraced, unbraced, hnext]
      cases hk : Brace.ofChar? c with
      | none =>
        simp only
        rw [ih, hcons, hsingle]
        rfl
      | some k =>
        cases k with
        | opening =>
          simp only
          rw [ih]
          split
          · rfl
          · rw [List.singleton_append, List.singleton_append, hcons, hsingle]
            rfl
        | closing =>
          simp only
          rw [ih]
          split
          · rfl
          · rw [List.singleton_append, List.singleton_append, hcons, hsingle]
            rfl

/-! ## Patterns in what stays -/

theorem lastOpens_quote (waiting : Bool) (style : EscapeStyle) (s : Text) :
    lastOpens waiting (style.quote s) = lastOpens waiting s := by
  unfold lastOpens
  rw [style.braces_quote]

theorem unbraced_literal (waiting closes : Bool) (style : EscapeStyle) (s t : Text) :
    unbraced waiting closes (style.quote s ++ t) =
      '\'' :: (unbraced waiting (nextCloses closes t) (style.escape s) ++
        '\'' :: unbraced (lastOpens waiting s) closes t) := by
  have hnone : Brace.ofChar? '\'' = none := by decide
  have hquote : style.quote s ++ t = '\'' :: (style.escape s ++ '\'' :: t) := by
    simp [EscapeStyle.quote]
  have hnext : nextCloses closes ('\'' :: t) = nextCloses closes t := by
    rw [nextCloses, braces_cons_none hnone, ← nextCloses]
  have hlast : lastOpens waiting (style.escape s) = lastOpens waiting s := by
    rw [lastOpens, style.braces_escape, ← lastOpens]
  rw [hquote, unbraced, hnone]
  simp only
  rw [unbraced_append, hnext, hlast]
  congr 2

end Text

variable {style : EscapeStyle} {strings : List Text} {m t : Text}

open Text

theorem Woven.exists_of_infix_unbraced (hnul : '\x00' ∈ m) (hm : '\'' ∉ m)
    (h : Woven style strings t) (before : Text) {w : Text} (hw : '\x00' ∉ w)
    (hocc : m <:+: unbraced (lastOpens false before) false (w ++ t)) :
    ∃ s ∈ strings, ∃ u v, before ++ w ++ t = u ++ style.quote s ++ v ∧
      m <:+: unbraced (lastOpens false u) (nextCloses false v) (style.escape s) := by
  induction h generalizing before w with
  | nil =>
    rw [List.append_nil] at hocc
    exact absurd (mem_of_mem_unbraced (hocc.subset hnul)) hw
  | @char c strings t hc _ ih =>
    have hcut : w ++ c :: t = (w ++ [c]) ++ t := by simp
    have hwc : '\x00' ∉ w ++ [c] := by
      rw [List.mem_append, List.mem_singleton, not_or]
      exact ⟨hw, Ne.symm hc⟩
    rw [hcut] at hocc
    obtain ⟨s, hs, u, v, huv, hs'⟩ := ih before hwc hocc
    exact ⟨s, hs, u, v, by rw [← huv]; simp, hs'⟩
  | @literal strings t s _ ih =>
    rw [unbraced_append, unbraced_literal] at hocc
    rw [infix_append_cons_iff hm, infix_append_cons_iff hm, ← lastOpens_append] at hocc
    rcases hocc with hocc | hocc | hocc
    · exact absurd (mem_of_mem_unbraced (hocc.subset hnul)) hw
    · exact ⟨s, List.mem_cons_self, before ++ w, t, by simp, hocc⟩
    · have hbefore : lastOpens (lastOpens false (before ++ w)) s =
          lastOpens false (before ++ w ++ style.quote s) := by
        rw [lastOpens_append false (before ++ w), lastOpens_quote]
      rw [hbefore, ← List.nil_append t] at hocc
      obtain ⟨s', hs', u, v, huv, hocc'⟩ := ih _ List.not_mem_nil hocc
      refine ⟨s', List.mem_cons_of_mem _ hs', u, v, ?_, hocc'⟩
      rw [← huv]
      simp

theorem infix_unbraced_of_literal {u v s : Text}
    (h : m <:+: unbraced (lastOpens false u) (nextCloses false v) (style.escape s)) :
    m <:+: unbraced false false (u ++ style.quote s ++ v) := by
  rw [List.append_assoc, unbraced_append, unbraced_literal]
  refine h.trans ?_
  exact ⟨unbraced false (nextCloses false (style.quote s ++ v)) u ++ ['\''],
    '\'' :: unbraced (lastOpens (lastOpens false u) s) false v, by simp⟩

theorem infix_unbraced (hm : Braceless Brace.ofChar? m) (h : m <:+: t) :
    m <:+: unbraced false false t := by
  obtain ⟨u, v, rfl⟩ := h
  rw [unbraced_append, unbraced_append, unbraced_braceless hm]
  exact ⟨_, _, rfl⟩

/-! ## What the second pass takes for a skip -/

namespace Context

variable (ctx : Context)

/-- The second pass sees no skip in a text: it drops no fragment, warns of nothing and writes no
skip literal. -/
structure SeesNoSkip (t : Text) : Prop where
  dropped : ∀ tally, (ctx.collapse tally t).tally.dropped = tally.dropped
  silent : ∀ tally literal, .skipOutsideFragment literal ∉ (ctx.collapse tally t).log
  unchanged : ∀ tally, (ctx.collapse tally t).text = ctx.collapseFragments t

variable {ctx}

theorem collapseFragments_eq_content
    (h : ∀ segment ∈ segments t, Segment.isDropped ctx.skipMarker segment = false) :
    ctx.collapseFragments t = (segments t).flatMap content := by
  rw [collapseFragments]
  apply List.flatMap_congr
  intro segment hsegment
  cases segment with
  | plain c => rfl
  | fragment inner =>
    have hinner : Text.occursIn ctx.skipMarker inner = false := h _ hsegment
    rw [Segment.collapsed, hinner]
    rfl

theorem seesNoSkip_iff : ctx.SeesNoSkip t ↔ ¬ctx.skipMarker <:+: unbraced false false t := by
  rw [← flatMap_content_eq, ← segments]
  constructor
  · intro h hocc
    have hcount : (segments t).countP (Segment.isDropped ctx.skipMarker) = 0 := by
      have htally := h.dropped {}
      rw [collapse] at htally
      simp only [tallyAfter] at htally
      omega
    have hnone : ∀ segment ∈ segments t, Segment.isDropped ctx.skipMarker segment = false :=
      fun segment hsegment => by simpa using List.countP_eq_zero.1 hcount segment hsegment
    have hsilent := h.silent {} ctx.settings.skipLiteral
    rw [collapse] at hsilent
    simp only [collapseFragments_eq_content hnone, Text.occursIn_iff.2 hocc, if_true] at hsilent
    exact hsilent (List.mem_append_left _ (List.mem_singleton_self _))
  · intro hnot
    have hnone : ∀ segment ∈ segments t, Segment.isDropped ctx.skipMarker segment = false := by
      intro segment hsegment
      cases segment with
      | plain c => rfl
      | fragment inner =>
        rw [Segment.isDropped, ← Bool.not_eq_true, Text.occursIn_iff]
        intro hinner
        obtain ⟨left, right, hsplit⟩ := List.append_of_mem hsegment
        refine hnot (hinner.trans ⟨left.flatMap content, right.flatMap content, ?_⟩)
        rw [hsplit, List.flatMap_append, List.flatMap_cons, List.append_assoc]
        rfl
    have hcollapsed := collapseFragments_eq_content hnone
    have hocc : Text.occursIn ctx.skipMarker (ctx.collapseFragments t) = false := by
      rwa [← Bool.not_eq_true, Text.occursIn_iff, hcollapsed]
    refine ⟨fun tally => ?_, fun tally literal => ?_, fun tally => ?_⟩
    · have hcount : (segments t).countP (Segment.isDropped ctx.skipMarker) = 0 :=
        List.countP_eq_zero.2 fun segment hsegment => by simp [hnone segment hsegment]
      rw [collapse]
      simp only [tallyAfter, hcount, Nat.add_zero]
    · rw [collapse]
      simp [hocc]
    · rw [collapse]
      exact Text.replaceAll_of_not_occursIn hocc

/-- Backslash escapes leave no pattern with a NUL, and doubled quotes leave every pattern without
quotes, whatever `keep` keeps of a text. -/
theorem infix_keep_escape_iff (hnul : '\x00' ∈ m) (hm : '\'' ∉ m) {keep : Text → Text}
    (hmem : ∀ {c t}, c ∈ keep t → c ∈ t)
    (hdoubled : ∀ s, keep (EscapeStyle.doubledQuote.escape s) =
      EscapeStyle.doubledQuote.escape (keep s)) (b : Builtin) (s : Text) :
    m <:+: keep (b.style.escape s) ↔ b ≠ .mysql ∧ m <:+: keep s := by
  have hquotes : m <:+: keep (EscapeStyle.doubledQuote.escape s) ↔ m <:+: keep s := by
    rw [hdoubled]
    exact infix_escape_doubledQuote_iff hm _
  cases b with
  | mysql =>
    have hnot : ¬m <:+: keep (EscapeStyle.backslash.escape s) := by
      intro h
      have hcontrol := EscapeStyle.not_mem_escape_backslash s _ (hmem (h.subset hnul))
      exact absurd hcontrol (by decide)
    exact iff_of_false hnot fun h => h.1 rfl
  | standard => exact hquotes.trans (by simp)
  | sqlite => exact hquotes.trans (by simp)
  | postgresql => exact hquotes.trans (by simp)

theorem infix_escape_iff (hnul : '\x00' ∈ m) (hm : '\'' ∉ m) (b : Builtin) (s : Text) :
    m <:+: b.style.escape s ↔ b ≠ .mysql ∧ m <:+: s :=
  infix_keep_escape_iff hnul hm id (fun _ => rfl) b s

theorem infix_unbraced_escape_iff (hnul : '\x00' ∈ m) (hm : '\'' ∉ m) (waiting closes : Bool)
    (b : Builtin) (s : Text) : m <:+: unbraced waiting closes (b.style.escape s) ↔
      b ≠ .mysql ∧ m <:+: unbraced waiting closes s :=
  infix_keep_escape_iff hnul hm mem_of_mem_unbraced (unbraced_escape waiting closes) b s

/-- **When data is taken for a skip.** Without skips among the arguments, the skip marker occurs in
what the first pass writes exactly if quotes are doubled and it occurs in a string. The second pass
is not deceived exactly if backslashes escape, or if no string holds the skip marker once its braces
that find a partner are gone. -/
theorem forged_iff (ctx : Context) (b : Builtin) (hescaper : ctx.escaper = .builtin b)
    (nonce : Nonce) (hmarker : ctx.skipMarker = nonce.skipMarker) (template : Text)
    (arguments : List Argument) (text : Text) (cursor : Cursor) (hnul : '\x00' ∉ template)
    (hskip : ∀ a ∈ arguments, a.isSkip = false)
    (hwrites : ∀ s ∈ Slot.ofText template, s.WritesLiterals arguments)
    (hsubstitute : ctx.substitute template (.start arguments) = .ok text cursor) :
    (ctx.skipMarker <:+: text ↔ b ≠ .mysql ∧
      ∃ s ∈ (Slot.ofText template).flatMap (Slot.strings arguments), ctx.skipMarker <:+: s) ∧
    (¬ctx.skipMarker <:+: text ∧ ctx.SeesNoSkip text ↔
      b = .mysql ∨ ¬∃ s ∈ (Slot.ofText template).flatMap (Slot.strings arguments),
        ∃ before after, text = before ++ b.style.quote s ++ after ∧
          ctx.skipMarker <:+: unbraced (lastOpens false before) (nextCloses false after) s) := by
  have hwoven := woven_substitute hescaper hnul hskip hwrites hsubstitute
  have hnul' := nonce.nul_mem_skipMarker
  have hquote : '\'' ∉ nonce.skipMarker := fun h => (Nonce.mem_skipMarker h).1 rfl
  have hbraceless : Braceless Brace.ofChar? nonce.skipMarker := fun c hc =>
    (Nonce.mem_skipMarker hc).2
  have hsees : ¬nonce.skipMarker <:+: text ∧ ctx.SeesNoSkip text ↔
      ¬nonce.skipMarker <:+: unbraced false false text := by
    rw [seesNoSkip_iff, hmarker]
    exact ⟨fun h => h.2, fun h => ⟨fun h' => h (infix_unbraced hbraceless h'), h⟩⟩
  rw [hmarker]
  refine ⟨?_, ?_⟩
  · rw [hwoven.infix_iff hnul' hquote]
    simp only [infix_escape_iff hnul' hquote]
    constructor
    · rintro ⟨s, hs, hb, hocc⟩
      exact ⟨hb, s, hs, hocc⟩
    · rintro ⟨hb, s, hs, hocc⟩
      exact ⟨s, hs, hb, hocc⟩
  · rw [hsees, ← not_iff_not, not_not, not_or, not_not]
    constructor
    · intro hocc
      obtain ⟨s, hs, u, v, huv, hs'⟩ :=
        hwoven.exists_of_infix_unbraced hnul' hquote [] (w := []) List.not_mem_nil hocc
      obtain ⟨hb, hs'⟩ := (infix_unbraced_escape_iff hnul' hquote _ _ b s).1 hs'
      exact ⟨hb, s, hs, u, v, huv, hs'⟩
    · rintro ⟨hb, s, hs, u, v, rfl, hs'⟩
      apply infix_unbraced_of_literal
      exact (infix_unbraced_escape_iff hnul' hquote _ _ b s).2 ⟨hb, hs'⟩

theorem slots_braced : Slot.ofText ['{', '?', '}'] =
    [⟨.char '{', 0⟩, ⟨.marker .generic, 0⟩, ⟨.char '}', 1⟩] := by decide

theorem writesLiterals_braced (arguments : List Argument) :
    ∀ s ∈ Slot.ofText ['{', '?', '}'], s.WritesLiterals arguments := by
  rw [slots_braced]
  simp [Slot.WritesLiterals]

theorem substitute_braced (nonce : Nonce) (s : Text) :
    (⟨.builtin .standard, {}, nonce.skipMarker⟩ : Context).substitute ['{', '?', '}']
        (.start [.scalar (.text s)]) =
      .ok (['{'] ++ EscapeStyle.doubledQuote.quote s ++ ['}']) ⟨[.scalar (.text s)], 1⟩ := by
  have htokens : (⟨.builtin .standard, {}, nonce.skipMarker⟩ : Context).tokens
      [.scalar (.text s)] ⟨.marker .generic, 0⟩ =
        Token.ofText (EscapeStyle.doubledQuote.quote s) := rfl
  refine substitute_eq_ok_iff.2 ⟨?_, ?_, rfl⟩
  · rw [slots_braced]
    intro slot hslot
    simp only [List.mem_cons, List.not_mem_nil, or_false] at hslot
    rcases hslot with rfl | rfl | rfl
    · rfl
    · rw [htokens, Token.flatMap_text_ofText]
      rfl
    · rfl
  · rw [slots_braced]
    simp only [List.flatMap_cons, List.flatMap_nil, tokens_char, htokens, List.flatMap_append,
      Token.flatMap_text_ofText]
    simp [Token.text]

/-- A string with an empty fragment within a skip marker. The marker occurs nowhere in the text, but
the second pass takes the braces away and then sees it. -/
theorem forged_iff_braced :
    let ctx : Context := ⟨.builtin .standard, {}, Nonce.skipMarker (.replicate 32 0)⟩
    let s : Text := '\x00' :: '{' :: '}' :: (Nonce.name (.replicate 32 0) ++ ['\x00'])
    ¬ctx.skipMarker <:+: ['{'] ++ EscapeStyle.doubledQuote.quote s ++ ['}'] ∧
      ¬ctx.SeesNoSkip (['{'] ++ EscapeStyle.doubledQuote.quote s ++ ['}']) := by
  intro ctx s
  obtain ⟨hoccurs, hsees⟩ := forged_iff ctx .standard rfl (.replicate 32 0) rfl ['{', '?', '}']
    [.scalar (.text s)] _ _ (by decide) (by simp [Argument.isSkip, Argument.classify])
    (writesLiterals_braced _) (substitute_braced (.replicate 32 0) s)
  have hstrings : (Slot.ofText ['{', '?', '}']).flatMap (Slot.strings [.scalar (.text s)]) =
      [s] := by
    rw [slots_braced]
    rfl
  rw [hstrings] at hoccurs hsees
  have hnot : ¬ctx.skipMarker <:+: s := by
    rw [← Text.occursIn_iff]
    decide
  have hleft : unbraced (lastOpens false ['{']) (nextCloses false ['}']) s = ctx.skipMarker := by
    decide
  have htext : ¬ctx.skipMarker <:+: ['{'] ++ EscapeStyle.doubledQuote.quote s ++ ['}'] := by
    rw [hoccurs]
    rintro ⟨-, t, ht, hocc⟩
    exact hnot (List.mem_singleton.1 ht ▸ hocc)
  refine ⟨htext, fun hsilent => ?_⟩
  rcases hsees.1 ⟨htext, hsilent⟩ with hb | hnone
  · cases hb
  · exact hnone ⟨s, List.mem_singleton_self s, ['{'], ['}'], rfl, hleft ▸ List.infix_refl _⟩

/-- A skip marker as data: quotes are doubled, the NUL characters stay, and the fragment around the
string is dropped. -/
theorem forged_skipMarker : ∃ text cursor,
    (⟨.builtin .standard, {}, Nonce.skipMarker (.replicate 32 0)⟩ : Context).substitute
        ['{', '?', '}'] (.start [.scalar (.text (Nonce.skipMarker (.replicate 32 0)))]) =
      .ok text cursor ∧
    Nonce.skipMarker (.replicate 32 0) <:+: text ∧
    ¬SeesNoSkip ⟨.builtin .standard, {}, Nonce.skipMarker (.replicate 32 0)⟩ text := by
  have hquote : '\'' ∉ Nonce.skipMarker (.replicate 32 0) :=
    fun h => (Nonce.mem_skipMarker h).1 rfl
  have hocc : Nonce.skipMarker (.replicate 32 0) <:+: ['{'] ++
      EscapeStyle.doubledQuote.quote (Nonce.skipMarker (.replicate 32 0)) ++ ['}'] := by
    have hescape := (infix_escape_doubledQuote_iff hquote _).2
      (List.infix_refl (Nonce.skipMarker (.replicate 32 0)))
    refine hescape.trans ⟨['{', '\''], ['\'', '}'], ?_⟩
    simp [EscapeStyle.quote]
  refine ⟨_, _, substitute_braced _ _, hocc, ?_⟩
  rw [seesNoSkip_iff]
  intro hnot
  exact hnot (infix_unbraced (fun c hc => (Nonce.mem_skipMarker hc).2) hocc)

end Context

end QueryTemplate
