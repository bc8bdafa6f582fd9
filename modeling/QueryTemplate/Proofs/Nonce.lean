import QueryTemplate.Proofs.Slot

/-!
# Nonces do not show

A build makes its skip marker from a nonce. As long as neither the template nor an argument puts a
NUL into the text between the passes, nothing that a build answers or reports depends on the nonce
(`compile_eq_of_nonces`). The first pass uses the same arguments and fails in the same way whatever
the skip marker is (`substitute_agrees`), and what the second pass does can be read off the tokens
(`collapse_text_eq`).
-/

namespace QueryTemplate

/-! ## Counting fragments -/

namespace Segment

variable {α β : Type}

def drops (drop : α → Bool) : Segment α → Bool
  | plain _ => false
  | fragment inner => inner.any drop

def keeps (drop : α → Bool) : Segment α → Bool
  | plain _ => false
  | fragment inner => !inner.any drop

theorem countP_flatMap_expand {f : α → List β} {p : Segment β → Bool} {q : Segment α → Bool}
    {segments : List (Segment α)} (hp : ∀ b, p (plain b) = false) (hq : ∀ a, q (plain a) = false)
    (hpq : ∀ inner, fragment inner ∈ segments →
      p (fragment (inner.flatMap f)) = q (fragment inner)) :
    (segments.flatMap (expand f)).countP p = segments.countP q := by
  induction segments with
  | nil => rfl
  | cons s segments ih =>
    have ih := ih fun inner h => hpq inner (List.mem_cons_of_mem _ h)
    rw [List.flatMap_cons, List.countP_append, ih, List.countP_cons, Nat.add_comm]
    congr 1
    cases s with
    | plain a =>
      have hnone : ((f a).map plain).countP p = 0 := by
        rw [List.countP_map]
        exact List.countP_eq_zero.2 fun b _ => by simp [hp]
      rw [expand, hnone, hq]
      rfl
    | fragment inner =>
      rw [expand, List.countP_singleton, hpq inner List.mem_cons_self]

end Segment

namespace Token

/-- The tally after tokens, counting on from `tally`. -/
def tallyAfter (tally : Tally) (ts : List Token) : Tally :=
  ⟨tally.kept + (Segment.ofList brace? ts).countP (Segment.keeps isSkip),
    tally.dropped + (Segment.ofList brace? ts).countP (Segment.drops isSkip)⟩

def collapsed (literal : Text) (tally : Tally) (ts : List Token) : Collapsed :=
  let tally := tallyAfter tally ts
  let warning := if (collapse ts).any isSkip then [.skipOutsideFragment literal] else []
  ⟨(collapse ts).flatMap (text literal), tally, warning ++ [.fragments tally.kept tally.dropped]⟩

end Token

/-! ## The second pass -/

namespace Context

open Token

variable {ctx : Context} {nonce : Nonce} {ts : List Token}

theorem tallyAfter_text (hctx : ctx.skipMarker = nonce.skipMarker) (hts : char '\x00' ∉ ts)
    (tally : Tally) :
    ctx.tallyAfter tally (ts.flatMap (text nonce.skipMarker)) = Token.tallyAfter tally ts := by
  have hinner : ∀ inner, .fragment inner ∈ Segment.ofList brace? ts →
      Text.occursIn nonce.skipMarker (inner.flatMap (text nonce.skipMarker)) =
        inner.any isSkip := by
    intro inner hsegment
    apply occursIn_text
    exact fun hmem => hts (Segment.mem_of_mem_content hsegment hmem)
  have hkept : ∀ inner, .fragment inner ∈ Segment.ofList brace? ts →
      Segment.isKept nonce.skipMarker (.fragment (inner.flatMap (text nonce.skipMarker))) =
        Segment.keeps isSkip (.fragment inner) := by
    intro inner hsegment
    rw [Segment.isKept, Segment.keeps, hinner inner hsegment]
  have hdropped : ∀ inner, .fragment inner ∈ Segment.ofList brace? ts →
      Segment.isDropped nonce.skipMarker (.fragment (inner.flatMap (text nonce.skipMarker))) =
        Segment.drops isSkip (.fragment inner) := by
    intro inner hsegment
    rw [Segment.isDropped, Segment.drops, hinner inner hsegment]
  rw [Context.tallyAfter, Token.tallyAfter, hctx, segments_text,
    Segment.countP_flatMap_expand (fun _ => rfl) (fun _ => rfl) hkept,
    Segment.countP_flatMap_expand (fun _ => rfl) (fun _ => rfl) hdropped]

theorem collapse_text_eq (hctx : ctx.skipMarker = nonce.skipMarker) (hts : char '\x00' ∉ ts)
    (tally : Tally) :
    ctx.collapse tally (ts.flatMap (text nonce.skipMarker)) =
      Token.collapsed ctx.settings.skipLiteral tally ts := by
  have hcollapse : char '\x00' ∉ Token.collapse ts :=
    fun h => hts (Segment.mem_of_mem_survivors h)
  rw [Context.collapse, tallyAfter_text hctx hts, collapseFragments_text hctx hts, hctx,
    occursIn_text hcollapse, replaceAll_text _ hcollapse]
  rfl

end Context

/-! ## The first pass -/

/-- Two runs of an action end at the same cursor, and they fail with the same error or both
succeed. -/
def Agrees {α : Type} : EStateM.Result BuildError Cursor α → EStateM.Result BuildError Cursor α →
    Prop
  | .ok _ c, .ok _ c' => c = c'
  | .error e c, .error e' c' => e = e' ∧ c = c'
  | _, _ => False

namespace Agrees

variable {α β : Type}

theorem refl (r : EStateM.Result BuildError Cursor α) : Agrees r r := by
  cases r with
  | ok a c => exact rfl
  | error e c => exact ⟨rfl, rfl⟩

theorem ends {r r' : EStateM.Result BuildError Cursor α} (h : Agrees r r') :
    (∃ a a' c, r = .ok a c ∧ r' = .ok a' c) ∨ ∃ e c, r = .error e c ∧ r' = .error e c := by
  match r, r', h with
  | .ok a _, .ok a' _, rfl => exact .inl ⟨a, a', _, rfl, rfl⟩
  | .error e c, .error _ _, ⟨rfl, rfl⟩ => exact .inr ⟨e, c, rfl, rfl⟩

theorem bind {x x' : Scan α} {f f' : α → Scan β} {c : Cursor} (h : Agrees (x c) (x' c))
    (hf : ∀ a a' c, Agrees (f a c) (f' a' c)) : Agrees ((x >>= f) c) ((x' >>= f') c) := by
  rw [Context.scan_bind, Context.scan_bind]
  rcases h.ends with ⟨a, a', c, hx, hx'⟩ | ⟨e, c, hx, hx'⟩
  · rw [hx, hx']
    exact hf a a' c
  · rw [hx, hx']
    exact refl _

end Agrees

namespace Context

variable (ctx : Context) (skipMarker : Text)

theorem fill_agrees (p : Piece) (c : Cursor) :
    Agrees (ctx.fill p c) ({ ctx with skipMarker }.fill p c) := by
  cases p with
  | char d => exact rfl
  | marker m =>
    rw [fill, fill, scan_bind, scan_bind]
    cases Cursor.take m.text c with
    | error e c => exact ⟨rfl, rfl⟩
    | ok a c =>
      simp only
      cases hskip : a.isSkip with
      | true =>
        rw [renderArgument_of_isSkip hskip, renderArgument_of_isSkip hskip]
        exact rfl
      | false =>
        rw [renderArgument_of_not_isSkip hskip skipMarker]
        exact .refl _

theorem mapM_fill_agrees (pieces : List Piece) (c : Cursor) :
    Agrees (pieces.mapM ctx.fill c) (pieces.mapM ({ ctx with skipMarker } : Context).fill c) := by
  induction pieces generalizing c with
  | nil => exact rfl
  | cons p rest ih =>
    rw [List.mapM_cons, List.mapM_cons]
    apply Agrees.bind (ctx.fill_agrees skipMarker p c)
    intro _ _ c
    apply Agrees.bind (ih c)
    intro _ _ c
    exact rfl

theorem substitute_agrees (template : Text) (c : Cursor) :
    Agrees (ctx.substitute template c) ({ ctx with skipMarker }.substitute template c) := by
  rw [substitute, substitute]
  apply Agrees.bind (ctx.mapM_fill_agrees skipMarker (Piece.ofText template) c)
  intro _ _ c
  exact rfl

def passes (tally : Tally) (template : Text) : Scan Collapsed := do
  return ctx.collapse tally (← ctx.substitute template)

/-- The template holds no NUL, and no argument that is taken leaves one. An argument is taken when
the slots before its marker can be filled; a skip leaves no text of its own. -/
structure NulFree (template : Text) (arguments : List Argument) : Prop where
  nul_not_mem : '\x00' ∉ template
  rendered : ∀ before s after, Slot.ofText template = before ++ s :: after →
    (∀ s' ∈ before, ∃ t, ctx.fillSlot arguments s' = .ok t) →
    s.piece.isMarker → s.takesSkip arguments = false →
    ∀ t, ctx.fillSlot arguments s = .ok t → '\x00' ∉ t

variable {ctx} {template : Text} {arguments : List Argument}

theorem NulFree.nul_not_mem_tokens (h : ctx.NulFree template arguments)
    (hfill : ∀ s ∈ Slot.ofText template, ∃ t, ctx.fillSlot arguments s = .ok t) :
    Token.char '\x00' ∉ (Slot.ofText template).flatMap (ctx.tokens arguments) := by
  refine Context.nul_not_mem_tokens (fun m i a hs ha hskip => ?_) h.nul_not_mem
  obtain ⟨before, after, hsplit⟩ := List.append_of_mem hs
  obtain ⟨t, ht⟩ := hfill _ hs
  have hbefore : ∀ s' ∈ before, ∃ t, ctx.fillSlot arguments s' = .ok t :=
    fun s' hs' => hfill s' (by simp [hsplit, hs'])
  have hkeep : Slot.takesSkip arguments ⟨.marker m, i⟩ = false := by
    simp [Slot.takesSkip, ha, hskip]
  have hnul : '\x00' ∉ t := h.rendered before _ after hsplit hbefore rfl hkeep t ht
  simp only [fillSlot, ha] at ht
  refine ⟨t, ht, fun c hc => ?_⟩
  rintro rfl
  exact hnul hc

theorem passes_eq_of_nonces {nonce : Nonce} (hctx : ctx.skipMarker = nonce.skipMarker)
    (h : ctx.NulFree template arguments) (nonce' : Nonce) (tally : Tally) :
    ctx.passes tally template (.start arguments) =
      { ctx with skipMarker := nonce'.skipMarker }.passes tally template (.start arguments) := by
  rw [passes, passes, scan_bind, scan_bind]
  rcases (ctx.substitute_agrees nonce'.skipMarker template (.start arguments)).ends with
    ⟨text, text', c, hsub, hsub'⟩ | ⟨e, c, hsub, hsub'⟩
  · have htokens : { ctx with skipMarker := nonce'.skipMarker }.tokens arguments =
        ctx.tokens arguments := funext (ctx.tokens_skipMarker nonce'.skipMarker)
    obtain ⟨hfill, htext, -⟩ := substitute_eq_ok_iff.1 hsub
    obtain ⟨-, htext', -⟩ := substitute_eq_ok_iff.1 hsub'
    have hnul := h.nul_not_mem_tokens fun s hs => ⟨_, hfill s hs⟩
    rw [htokens] at htext'
    simp only [hsub, hsub', htext, htext', pure, EStateM.pure]
    rw [hctx, collapse_text_eq hctx hnul, collapse_text_eq rfl hnul]
  · simp only [hsub, hsub']

end Context

/-! ## Builds -/

namespace Handler

variable {h : Handler} {nonce nonce' : Nonce} {template : Text} {arguments : List Argument}

theorem compile_eq_passes :
    h.compile nonce template arguments =
      match (h.context nonce).passes {} template (.start arguments) with
      | .ok collapsed cursor =>
        ⟨.ok ⟨collapsed.text, h.escaper.dialect, cursor.position, arguments.length⟩,
          .substituted cursor.position :: collapsed.log ++
            if cursor.remaining = 0 then [] else [.unused cursor.remaining]⟩
      | .error e _ => ⟨.error e, []⟩ := by
  rw [Context.passes, Context.scan_bind, compile, context]
  cases (⟨h.escaper, h.settings, nonce.skipMarker⟩ : Context).substitute template
    (.start arguments) <;> rfl

theorem compile_nonce (hnul : (h.context nonce).NulFree template arguments) (nonce' : Nonce) :
    h.compile nonce template arguments = h.compile nonce' template arguments := by
  have hpasses := Context.passes_eq_of_nonces rfl hnul nonce' {}
  rw [compile_eq_passes, compile_eq_passes, hpasses]
  rfl

theorem outcome_error_iff (nonce nonce' : Nonce) (e : BuildError) :
    (h.compile nonce template arguments).outcome = .error e ↔
      (h.compile nonce' template arguments).outcome = .error e := by
  have hagrees : Agrees ((h.context nonce).substitute template (.start arguments))
      ((h.context nonce').substitute template (.start arguments)) :=
    (h.context nonce).substitute_agrees nonce'.skipMarker template (.start arguments)
  rw [context, context] at hagrees
  rw [compile, compile]
  rcases hagrees.ends with ⟨text, text', c, hsub, hsub'⟩ | ⟨e', c, hsub, hsub'⟩
  · simp [hsub, hsub']
  · simp [hsub, hsub']

/-- **Nothing of a build depends on its nonce.** Without NUL, both passes give the same text, tally
and log for two nonces, or the same error, and leave the same cursor; so a build gives the same
outcome and the same log. -/
theorem compile_eq_of_nonces (h : Handler) (nonce nonce' : Nonce) (template : Text)
    (arguments : List Argument) (hnul : (h.context nonce).NulFree template arguments) :
    (∀ tally, (h.context nonce).passes tally template (.start arguments) =
      (h.context nonce').passes tally template (.start arguments)) ∧
    h.compile nonce template arguments = h.compile nonce' template arguments := by
  exact ⟨fun tally => Context.passes_eq_of_nonces rfl hnul nonce' tally,
    compile_nonce hnul nonce'⟩

/-- A brace of the data opens before the fragment that the skip drops. -/
theorem compile_eq_of_nonces_braced :
    (context ⟨.builtin .mysql, {}⟩ (.replicate 32 0)).NulFree ['?', '{', '?', '}']
        [.scalar (.text ['{']), .value .skip] ∧
      (⟨.builtin .mysql, {}⟩ : Handler).compile (.replicate 32 0) ['?', '{', '?', '}']
          [.scalar (.text ['{']), .value .skip] =
        (⟨.builtin .mysql, {}⟩ : Handler).compile (.replicate 32 1) ['?', '{', '?', '}']
          [.scalar (.text ['{']), .value .skip] := by
  have hslots : Slot.ofText ['?', '{', '?', '}'] =
      [⟨.marker .generic, 0⟩, ⟨.char '{', 1⟩, ⟨.marker .generic, 1⟩, ⟨.char '}', 2⟩] := by decide
  have hnul : (context ⟨.builtin .mysql, {}⟩ (.replicate 32 0)).NulFree ['?', '{', '?', '}']
      [.scalar (.text ['{']), .value .skip] := by
    refine ⟨by decide, fun before s after hsplit _ hm hskip t ht => ?_⟩
    have hs : s ∈ Slot.ofText ['?', '{', '?', '}'] := by simp [hsplit]
    simp only [hslots, List.mem_cons, List.not_mem_nil, or_false] at hs
    rcases hs with rfl | rfl | rfl | rfl
    · obtain rfl : ['\'', '{', '\''] = t := Except.ok.inj ht
      decide
    · cases hm
    · cases hskip
    · cases hm
  exact ⟨hnul, (compile_eq_of_nonces _ _ _ _ _ hnul).2⟩

end Handler

end QueryTemplate
