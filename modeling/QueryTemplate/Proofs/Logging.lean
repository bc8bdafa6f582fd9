import QueryTemplate.Proofs.Accounting
import QueryTemplate.Proofs.Confinement
import QueryTemplate.Proofs.OneLevel
import QueryTemplate.Proofs.QuotedText

/-!
# What a build logs

The log of a build is written while the arguments are in the text, but it holds none of them: as
long as no argument leaves a brace or a NUL, it can be read off the template, the skip literal and
the places of the skips (`publicLog`), and so can its lines (`publicLines`). Builds whose arguments
differ in anything else have the same log (`log_eq_publicLog`), and a build that fails has none.
-/

namespace QueryTemplate

namespace Segment

variable {α : Type}

def staysOutside (drop : α → Bool) : Segment α → Bool
  | plain a => drop a
  | fragment _ => false

theorem any_flatMap_survivors (drop : α → Bool) (segments : List (Segment α)) :
    (segments.flatMap (survivors drop)).any drop = segments.any (staysOutside drop) := by
  rw [List.any_flatMap]
  congr 1
  funext s
  cases s with
  | plain a => simp [survivors, staysOutside]
  | fragment inner =>
    rw [survivors, staysOutside]
    split
    · rfl
    · simpa using ‹¬inner.any drop = true›

end Segment

/-! ## The public view -/

/-- Whether a slot takes a skip, if `skips` says which arguments are skips. -/
def Slot.skippedBy (skips : List Bool) (s : Slot) : Bool :=
  s.piece.isMarker && skips[s.rank]?.any id

theorem Slot.takesSkip_eq (arguments : List Argument) :
    Slot.takesSkip arguments = Slot.skippedBy (arguments.map Argument.isSkip) := by
  funext s
  rw [takesSkip, skippedBy, List.getElem?_map, Option.any_map]
  rfl

/-- The log of a build that succeeds, read off the skip literal, the template, and which of the
arguments are skips: the number of question marks, a warning if a skip stands outside all fragments,
the fragments without and with a skip, and the arguments left over if there are some. -/
def publicLog (literal template : Text) (skips : List Bool) : List LogRecord :=
  let segments := Slot.segments template
  let leftOver : Int := skips.length - (template.count '?' : Nat)
  .substituted (template.count '?' : Nat) ::
    (if segments.any (Segment.staysOutside (Slot.skippedBy skips)) then
      [.skipOutsideFragment literal] else []) ++
    [.fragments (segments.countP (Segment.keeps (Slot.skippedBy skips)))
      (segments.countP (Segment.drops (Slot.skippedBy skips)))] ++
    if leftOver = 0 then [] else [.unused leftOver]

/-- The lines of that log: level, part of the build, and message. -/
def publicLines (literal template : Text) (skips : List Bool) : List LogLine :=
  let segments := Slot.segments template
  let count := template.count '?'
  let kept := segments.countP (Segment.keeps (Slot.skippedBy skips))
  let dropped := segments.countP (Segment.drops (Slot.skippedBy skips))
  let leftOver : Int := skips.length - (count : Nat)
  ⟨"DEBUG", "sqlslot.compile.scanner", s!"Substituted {count} placeholder(s)"⟩ ::
    (if segments.any (Segment.staysOutside (Slot.skippedBy skips)) then
      [⟨"WARNING", "sqlslot.compile.collapser",
        "Skip value used outside a conditional fragment; rendering it as " ++
          String.ofList literal.quoted⟩] else []) ++
    [⟨"DEBUG", "sqlslot.compile.collapser", s!"Fragments kept: {kept}, dropped: {dropped}"⟩] ++
    if leftOver = 0 then [] else
      [⟨"DEBUG", "sqlslot.compile.builder",
        s!"{leftOver} argument(s) not consumed by any marker"⟩]

theorem map_line_publicLog (literal template : Text) (skips : List Bool) :
    (publicLog literal template skips).map LogRecord.line =
      publicLines literal template skips := by
  simp only [publicLog, publicLines, List.map_append, List.map_cons]
  congr 1
  · congr 2
    split <;> rfl
  · split <;> rfl

/-! ## The log of the second pass -/

namespace Context

variable {ctx : Context} {template : Text} {arguments : List Argument}

theorem tallyAfter_tokens
    (h : ctx.Renders arguments template (∀ c ∈ ·, c ≠ '{' ∧ c ≠ '}')) (tally : Tally) :
    Token.tallyAfter tally ((Slot.ofText template).flatMap (ctx.tokens arguments)) =
      ⟨tally.kept + (Slot.segments template).countP (Segment.keeps (Slot.takesSkip arguments)),
        tally.dropped + (Slot.segments template).countP
          (Segment.drops (Slot.takesSkip arguments))⟩ := by
  have hkept : ∀ inner, .fragment inner ∈ Slot.segments template →
      Segment.keeps Token.isSkip (.fragment (inner.flatMap (ctx.tokens arguments))) =
        Segment.keeps (Slot.takesSkip arguments) (.fragment inner) := by
    intro inner _
    rw [Segment.keeps, Segment.keeps, any_isSkip_flatMap_tokens]
  have hdropped : ∀ inner, .fragment inner ∈ Slot.segments template →
      Segment.drops Token.isSkip (.fragment (inner.flatMap (ctx.tokens arguments))) =
        Segment.drops (Slot.takesSkip arguments) (.fragment inner) := by
    intro inner _
    rw [Segment.drops, Segment.drops, any_isSkip_flatMap_tokens]
  rw [Token.tallyAfter, Segment.ofList_flatMap fun s hs => h.faithful_tokens hs, ← Slot.segments,
    Segment.countP_flatMap_expand (fun _ => rfl) (fun _ => rfl) hkept,
    Segment.countP_flatMap_expand (fun _ => rfl) (fun _ => rfl) hdropped]

theorem any_isSkip_collapse_tokens
    (h : ctx.Renders arguments template (∀ c ∈ ·, c ≠ '{' ∧ c ≠ '}')) :
    (Token.collapse ((Slot.ofText template).flatMap (ctx.tokens arguments))).any Token.isSkip =
      (Slot.segments template).any (Segment.staysOutside (Slot.takesSkip arguments)) := by
  rw [collapse_tokens fun s hs => h.faithful_tokens hs, any_isSkip_flatMap_tokens,
    Segment.any_flatMap_survivors]

theorem log_collapse_tokens {nonce : Nonce} (hctx : ctx.skipMarker = nonce.skipMarker)
    (hnul : Token.char '\x00' ∉ (Slot.ofText template).flatMap (ctx.tokens arguments))
    (h : ctx.Renders arguments template (∀ c ∈ ·, c ≠ '{' ∧ c ≠ '}')) :
    (ctx.collapse {} (((Slot.ofText template).flatMap (ctx.tokens arguments)).flatMap
      (Token.text nonce.skipMarker))).log =
      (if (Slot.segments template).any (Segment.staysOutside (Slot.takesSkip arguments)) then
        [.skipOutsideFragment ctx.settings.skipLiteral] else []) ++
      [.fragments
        ((Slot.segments template).countP (Segment.keeps (Slot.takesSkip arguments)))
        ((Slot.segments template).countP (Segment.drops (Slot.takesSkip arguments)))] := by
  rw [collapse_text_eq hctx hnul, Token.collapsed, tallyAfter_tokens h,
    any_isSkip_collapse_tokens h]
  simp only [Nat.zero_add]

end Context

/-! ## The log of a build -/

namespace Handler

variable {h : Handler} {nonce : Nonce} {template : Text} {arguments : List Argument}

theorem log_of_error {e : BuildError}
    (herror : (h.compile nonce template arguments).outcome = .error e) :
    (h.compile nonce template arguments).log = [] := by
  rw [compile_eq_passes] at herror ⊢
  cases hpasses : (h.context nonce).passes {} template (.start arguments) with
  | ok collapsed cursor =>
    rw [hpasses] at herror
    cases herror
  | error e cursor => rfl

theorem log_of_substitute {text : Text} {cursor : Cursor}
    (hsub : (h.context nonce).substitute template (.start arguments) = .ok text cursor) :
    (h.compile nonce template arguments).log =
      .substituted cursor.position :: ((h.context nonce).collapse {} text).log ++
        if cursor.remaining = 0 then [] else [.unused cursor.remaining] := by
  rw [context] at hsub
  simp only [compile, hsub]
  rfl

theorem log_of_ok {q : CompiledQuery}
    (hok : (h.compile nonce template arguments).outcome = .ok q) (hnul : '\x00' ∉ template)
    (hargs : (h.context nonce).Renders arguments template
      (∀ c ∈ ·, c ≠ '\x00' ∧ c ≠ '{' ∧ c ≠ '}')) :
    (h.compile nonce template arguments).log =
      publicLog h.settings.skipLiteral template (arguments.map Argument.isSkip) := by
  cases hsub : (h.context nonce).substitute template (.start arguments) with
  | error e cursor =>
    rw [context] at hsub
    simp [compile, hsub] at hok
  | ok text cursor =>
    have hnone : Token.char '\x00' ∉ (Slot.ofText template).flatMap
        ((h.context nonce).tokens arguments) :=
      Context.nul_not_mem_tokens (hargs.mono fun t ht c hc => (ht c hc).1) hnul
    have hmarker : (h.context nonce).skipMarker = nonce.skipMarker := rfl
    rw [log_of_substitute hsub]
    obtain ⟨-, rfl, rfl⟩ := Context.substitute_eq_ok_iff.1 hsub
    rw [hmarker, Context.log_collapse_tokens hmarker hnone
      (hargs.mono fun t ht c hc => (ht c hc).2), Slot.takesSkip_eq, Piece.markerCount_ofText,
      publicLog, List.length_map]
    rfl

/-- **Arguments are not logged.** Without braces and NUL in what the arguments leave, builds whose
skips stand at the same places have the same log, which is that of the template, line by line; a
build that fails has none. The warning shows the skip literal. -/
theorem log_eq_publicLog (h : Handler) :
    (∀ nonce nonce' template arguments arguments', '\x00' ∉ template →
      arguments.map Argument.isSkip = arguments'.map Argument.isSkip →
      (∃ q, (h.compile nonce template arguments).outcome = .ok q) →
      (∃ q, (h.compile nonce' template arguments').outcome = .ok q) →
      (h.context nonce).Renders arguments template (∀ c ∈ ·, c ≠ '\x00' ∧ c ≠ '{' ∧ c ≠ '}') →
      (h.context nonce').Renders arguments' template (∀ c ∈ ·, c ≠ '\x00' ∧ c ≠ '{' ∧ c ≠ '}') →
      (h.compile nonce template arguments).log = (h.compile nonce' template arguments').log ∧
        (h.compile nonce template arguments).log =
          publicLog h.settings.skipLiteral template (arguments.map Argument.isSkip) ∧
        (h.compile nonce template arguments).log.map LogRecord.line =
          publicLines h.settings.skipLiteral template (arguments.map Argument.isSkip)) ∧
    (∀ nonce template arguments e, (h.compile nonce template arguments).outcome = .error e →
      (h.compile nonce template arguments).log = []) ∧
    Text.ShowsAs h.settings.skipLiteral h.settings.skipLiteral.quoted := by
  refine ⟨?_, fun nonce template arguments e => log_of_error, Text.showsAs_quoted _⟩
  intro nonce nonce' template arguments arguments' hnul hskips ⟨q, hok⟩ ⟨q', hok'⟩ hargs hargs'
  have hlog := log_of_ok hok hnul hargs
  have hlog' := log_of_ok hok' hnul hargs'
  rw [← hskips] at hlog'
  exact ⟨hlog.trans hlog'.symm, hlog, by rw [hlog, map_line_publicLog]⟩

/-- A dropped fragment, a kept one, a skip outside both, and an argument left over. -/
theorem log_eq_publicLog_skips :
    ((⟨.builtin .mysql, {}⟩ : Handler).compile (.replicate 32 0)
        ['{', '?', '}', '{', '?', '}', '?']
        [.value .skip, .scalar (.int 7), .value .skip, .foreign "object"]).log =
      ((⟨.builtin .mysql, {}⟩ : Handler).compile (.replicate 32 1)
        ['{', '?', '}', '{', '?', '}', '?']
        [.value .skip, .scalar (.text ['z']), .value .skip, .scalar .null]).log ∧
    ((⟨.builtin .mysql, {}⟩ : Handler).compile (.replicate 32 0)
        ['{', '?', '}', '{', '?', '}', '?']
        [.value .skip, .scalar (.int 7), .value .skip, .foreign "object"]).log.map LogRecord.line =
      [⟨"DEBUG", "sqlslot.compile.scanner", "Substituted 3 placeholder(s)"⟩,
        ⟨"WARNING", "sqlslot.compile.collapser",
          "Skip value used outside a conditional fragment; rendering it as 'SKIP_BLOCK'"⟩,
        ⟨"DEBUG", "sqlslot.compile.collapser", "Fragments kept: 1, dropped: 1"⟩,
        ⟨"DEBUG", "sqlslot.compile.builder", "1 argument(s) not consumed by any marker"⟩] := by
  have hslots : Slot.ofText ['{', '?', '}', '{', '?', '}', '?'] =
      [⟨.char '{', 0⟩, ⟨.marker .generic, 0⟩, ⟨.char '}', 1⟩, ⟨.char '{', 1⟩,
        ⟨.marker .generic, 1⟩, ⟨.char '}', 2⟩, ⟨.marker .generic, 2⟩] := by decide
  have hrenders : ∀ nonce x y t,
      (context ⟨.builtin .mysql, {}⟩ nonce).renderArgument .generic x = .ok t →
      (∀ c ∈ t, c ≠ '\x00' ∧ c ≠ '{' ∧ c ≠ '}') →
      (context ⟨.builtin .mysql, {}⟩ nonce).Renders [.value .skip, x, .value .skip, y]
        ['{', '?', '}', '{', '?', '}', '?'] (∀ c ∈ ·, c ≠ '\x00' ∧ c ≠ '{' ∧ c ≠ '}') := by
    intro nonce x y t hx ht m i a hs ha hskip
    simp only [hslots, List.mem_cons, Slot.mk.injEq, reduceCtorEq, false_and, false_or,
      Piece.marker.injEq, List.not_mem_nil, or_false] at hs
    rcases hs with ⟨rfl, rfl⟩ | ⟨rfl, rfl⟩ | ⟨rfl, rfl⟩
    · obtain rfl := Option.some.inj ha
      cases hskip
    · obtain rfl := Option.some.inj ha
      exact ⟨t, hx, ht⟩
    · obtain rfl := Option.some.inj ha
      cases hskip
  obtain ⟨hsame, -, hlines⟩ := (log_eq_publicLog ⟨.builtin .mysql, {}⟩).1 (.replicate 32 0)
    (.replicate 32 1) ['{', '?', '}', '{', '?', '}', '?']
    [.value .skip, .scalar (.int 7), .value .skip, .foreign "object"]
    [.value .skip, .scalar (.text ['z']), .value .skip, .scalar .null]
    (by decide) rfl ⟨_, rfl⟩ ⟨_, rfl⟩ (hrenders _ _ _ ['7'] rfl (by simp))
    (hrenders _ _ _ ['\'', 'z', '\''] rfl (by simp))
  exact ⟨hsame, hlines.trans (by decide +kernel)⟩

end Handler

end QueryTemplate
