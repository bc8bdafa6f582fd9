import QueryTemplate.Proofs.Slot

/-!
# One level

A build makes two passes, and the second reads what the first has written. The same query can be
read off the template at one level (`Handler.oneLevel`): drop the fragments of the template in which
a marker takes a skip, take the braces off the others, and fill the slots that are left. As long as
no argument leaves a brace or a NUL, both are the same (`compile_refines_oneLevel`).
-/

namespace QueryTemplate

namespace Handler

/-- A context in which a skip is spelled by the skip literal at once. -/
def literalContext (h : Handler) : Context := ⟨h.escaper, h.settings, h.settings.skipLiteral⟩

/-- The query read off the template: a skip in a fragment drops it, any other skip is the skip
literal. -/
def oneLevel (h : Handler) (template : Text) (arguments : List Argument) :
    Except BuildError Text :=
  let kept := (Slot.segments template).flatMap (Segment.survivors (Slot.takesSkip arguments))
  (kept.mapM (h.literalContext.fillSlot arguments)).map List.flatten

end Handler

namespace Context

variable {ctx : Context} {arguments : List Argument} {template : Text}

theorem collapse_tokens
    (h : ∀ s ∈ Slot.ofText template,
      Segment.Faithful Slot.brace? Token.brace? (ctx.tokens arguments) s) :
    Token.collapse ((Slot.ofText template).flatMap (ctx.tokens arguments)) =
      ((Slot.segments template).flatMap (Segment.survivors (Slot.takesSkip arguments))).flatMap
        (ctx.tokens arguments) := by
  rw [Token.collapse, Segment.ofList_flatMap h, ← Slot.segments, List.flatMap_assoc,
    List.flatMap_assoc]
  apply List.flatMap_congr
  intro segment _
  apply Segment.survivors_expand
  intro s _
  exact any_isSkip_tokens s

end Context

namespace Handler

variable {h : Handler} {nonce : Nonce} {template : Text} {arguments : List Argument}

theorem tokens_literalContext (s : Slot) :
    h.literalContext.tokens arguments s = (h.context nonce).tokens arguments s :=
  (h.context nonce).tokens_skipMarker h.settings.skipLiteral s

theorem fillSlot_literalContext {s : Slot} {t : Text}
    (hfill : (h.context nonce).fillSlot arguments s = .ok t) :
    h.literalContext.fillSlot arguments s =
      .ok ((h.literalContext.tokens arguments s).flatMap
        (Token.text h.literalContext.skipMarker)) := by
  cases hskip : s.takesSkip arguments with
  | true =>
    rw [Context.fillSlot_of_takesSkip hskip, Context.tokens, if_pos hskip]
    simp [Token.text]
  | false =>
    have hsame : h.literalContext.fillSlot arguments s = .ok t := by
      rw [← hfill]
      exact (h.context nonce).fillSlot_of_not_takesSkip hskip h.settings.skipLiteral
    rw [hsame, ← Context.eq_text_tokens hsame]

theorem exists_fillSlot {P : Text → Prop}
    (hcount : Piece.markerCount (Piece.ofText template) ≤ arguments.length)
    (hargs : (h.context nonce).Renders arguments template P) {s : Slot}
    (hs : s ∈ Slot.ofText template) : ∃ t, (h.context nonce).fillSlot arguments s = .ok t := by
  cases hskip : s.takesSkip arguments with
  | true => exact ⟨_, Context.fillSlot_of_takesSkip hskip⟩
  | false =>
    obtain ⟨p, rank⟩ := s
    cases p with
    | char c => exact ⟨_, rfl⟩
    | marker m =>
      have hrank := (Piece.ranked_bounds hs).2 rfl
      simp only [Nat.zero_add] at hrank
      obtain ⟨t, ht, -⟩ := hargs.fillSlot hs rfl hskip (by simp only; omega)
      exact ⟨t, ht⟩

theorem oneLevel_eq
    (hfill : ∀ s ∈ Slot.ofText template, ∃ t, (h.context nonce).fillSlot arguments s = .ok t) :
    h.oneLevel template arguments =
      .ok ((((Slot.segments template).flatMap
        (Segment.survivors (Slot.takesSkip arguments))).flatMap
          ((h.context nonce).tokens arguments)).flatMap (Token.text h.settings.skipLiteral)) := by
  have hkept : ∀ s ∈ (Slot.segments template).flatMap
      (Segment.survivors (Slot.takesSkip arguments)),
      h.literalContext.fillSlot arguments s = .ok ((h.literalContext.tokens arguments s).flatMap
        (Token.text h.literalContext.skipMarker)) := by
    intro s hs
    obtain ⟨t, ht⟩ := hfill s (Segment.mem_of_mem_survivors hs)
    exact fillSlot_literalContext ht
  have htokens : h.literalContext.tokens arguments = (h.context nonce).tokens arguments :=
    funext tokens_literalContext
  have hmapM := (Context.mapM_eq_ok_iff fun _ _ ht => Context.eq_text_tokens ht).2 ⟨hkept, rfl⟩
  simp only [oneLevel]
  rw [hmapM, Except.map, ← List.flatMap_def, ← List.flatMap_assoc, htokens]
  rfl

/-- **The two passes refine one level.** Whatever the braces of the template do, a build succeeds
and gives what is read off the template, for every skip marker. The segments that are read are those
of the text of the template. -/
theorem compile_refines_oneLevel (h : Handler) (nonce : Nonce) (template : Text)
    (arguments : List Argument) (hnul : '\x00' ∉ template)
    (hcount : Piece.markerCount (Piece.ofText template) ≤ arguments.length)
    (hargs : (h.context nonce).Renders arguments template
      (∀ c ∈ ·, c ≠ '\x00' ∧ c ≠ '{' ∧ c ≠ '}')) :
    (∃ q, (h.compile nonce template arguments).outcome = .ok q ∧
      h.oneLevel template arguments = .ok q.sql) ∧
    Segment.ofList Brace.ofChar? template =
      (Slot.segments template).flatMap (Segment.expand Slot.text) := by
  refine ⟨?_, Slot.ofList_template template⟩
  have hfill : ∀ s ∈ Slot.ofText template, ∃ t, (h.context nonce).fillSlot arguments s = .ok t :=
    fun s hs => exists_fillSlot hcount hargs hs
  have hnone : Token.char '\x00' ∉ (Slot.ofText template).flatMap
      ((h.context nonce).tokens arguments) :=
    Context.nul_not_mem_tokens (hargs.mono fun t ht c hc => (ht c hc).1) hnul
  have hfaithful : ∀ s ∈ Slot.ofText template,
      Segment.Faithful Slot.brace? Token.brace? ((h.context nonce).tokens arguments) s :=
    fun s hs => (hargs.mono fun t ht c hc => (ht c hc).2).faithful_tokens hs
  have hbuild := (build_eq_ok_iff hnone).2 ⟨hfill, rfl⟩
  rw [Context.collapse_tokens hfaithful] at hbuild
  rw [build] at hbuild
  cases hout : (h.compile nonce template arguments).outcome with
  | error e => simp [hout, Except.map] at hbuild
  | ok q =>
    refine ⟨q, rfl, ?_⟩
    rw [hout, Except.map, Except.ok.injEq] at hbuild
    rw [oneLevel_eq hfill, hbuild]

/-- A brace without a partner, a kept fragment, a dropped one, and a skip outside both. -/
theorem compile_refines_oneLevel_nested :
    ∃ q, ((⟨.builtin .mysql, {}⟩ : Handler).compile (.replicate 32 0)
        ['{', '{', '?', 'd', '}', '{', '?', '}', '?']
        [.scalar (.int 7), .value .skip, .value .skip]).outcome = .ok q ∧
      q.sql = ['{', '7'] ++ "SKIP_BLOCK".toList := by
  have hslots : Slot.ofText ['{', '{', '?', 'd', '}', '{', '?', '}', '?'] =
      [⟨.char '{', 0⟩, ⟨.char '{', 0⟩, ⟨.marker .integer, 0⟩, ⟨.char '}', 1⟩, ⟨.char '{', 1⟩,
        ⟨.marker .generic, 1⟩, ⟨.char '}', 2⟩, ⟨.marker .generic, 2⟩] := by decide
  have hargs : (context ⟨.builtin .mysql, {}⟩ (.replicate 32 0)).Renders
      [.scalar (.int 7), .value .skip, .value .skip]
      ['{', '{', '?', 'd', '}', '{', '?', '}', '?'] (∀ c ∈ ·, c ≠ '\x00' ∧ c ≠ '{' ∧ c ≠ '}') := by
    intro m i a hs ha hskip
    simp only [hslots, List.mem_cons, Slot.mk.injEq, reduceCtorEq, false_and, false_or,
      Piece.marker.injEq, List.not_mem_nil, or_false] at hs
    rcases hs with ⟨rfl, rfl⟩ | ⟨rfl, rfl⟩ | ⟨rfl, rfl⟩
    · obtain rfl := Option.some.inj ha
      exact ⟨['7'], by decide, by simp⟩
    · obtain rfl := Option.some.inj ha
      exact absurd hskip (by decide)
    · obtain rfl := Option.some.inj ha
      exact absurd hskip (by decide)
  obtain ⟨⟨q, hq, hsql⟩, -⟩ := compile_refines_oneLevel ⟨.builtin .mysql, {}⟩ (.replicate 32 0)
    ['{', '{', '?', 'd', '}', '{', '?', '}', '?'] [.scalar (.int 7), .value .skip, .value .skip]
    (by decide) (by decide) hargs
  have hone : (⟨.builtin .mysql, {}⟩ : Handler).oneLevel
      ['{', '{', '?', 'd', '}', '{', '?', '}', '?']
      [.scalar (.int 7), .value .skip, .value .skip] =
        .ok (['{', '7'] ++ "SKIP_BLOCK".toList) := by decide
  exact ⟨q, hq, Except.ok.inj (hsql.symm.trans hone)⟩

end Handler

end QueryTemplate
