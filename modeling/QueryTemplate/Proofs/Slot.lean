import QueryTemplate.Proofs.Token
import QueryTemplate.Query.Handler

/-!
# Slots

A slot is a piece of a template with its rank, which is the number of markers before it. The rank of
a marker is the place of its argument, so the first pass fills every slot on its own
(`substitute_eq_ok_iff`). The tokens of a slot are what it is filled with, a skip being kept as
such; they do not depend on the skip marker.
-/

namespace QueryTemplate

/-- A piece of a template, and the number of markers before it. -/
structure Slot where
  piece : Piece
  rank : Nat
deriving DecidableEq

namespace Piece

def markerCount (pieces : List Piece) : Nat := pieces.countP isMarker

/-- The slots of some pieces, when `start` markers stand before them. -/
def ranked (start : Nat) : List Piece → List Slot
  | [] => []
  | char c :: rest => ⟨char c, start⟩ :: ranked start rest
  | marker m :: rest => ⟨marker m, start⟩ :: ranked (start + 1) rest

theorem markerCount_char (c : Char) (pieces : List Piece) :
    markerCount (char c :: pieces) = markerCount pieces :=
  List.countP_cons_of_neg (by simp [isMarker])

theorem markerCount_marker (m : Marker) (pieces : List Piece) :
    markerCount (marker m :: pieces) = markerCount pieces + 1 := List.countP_cons_of_pos rfl

theorem map_piece_ranked (pieces : List Piece) (start : Nat) :
    (ranked start pieces).map Slot.piece = pieces := by
  induction pieces generalizing start with
  | nil => rfl
  | cons p rest ih =>
    cases p with
    | char c => rw [ranked, List.map_cons, ih start]
    | marker m => rw [ranked, List.map_cons, ih (start + 1)]

theorem ranked_bounds {pieces : List Piece} {start : Nat} {s : Slot}
    (h : s ∈ ranked start pieces) :
    start ≤ s.rank ∧ (s.piece.isMarker → s.rank < start + markerCount pieces) := by
  induction pieces generalizing start with
  | nil => simp [ranked] at h
  | cons p rest ih =>
    cases p with
    | char c =>
      rw [markerCount_char]
      rcases List.mem_cons.1 h with rfl | h
      · simp [isMarker]
      · exact ih h
    | marker m =>
      rw [markerCount_marker]
      rcases List.mem_cons.1 h with rfl | h
      · simp
      · obtain ⟨h1, h2⟩ := ih h
        refine ⟨by omega, fun hm => ?_⟩
        have := h2 hm
        omega

theorem pairwise_ranked (pieces : List Piece) (start : Nat) :
    (ranked start pieces).Pairwise fun s t =>
      s.rank ≤ t.rank ∧ (s.piece.isMarker → s.rank < t.rank) := by
  induction pieces generalizing start with
  | nil => exact .nil
  | cons p rest ih =>
    cases p with
    | char c =>
      refine List.pairwise_cons.2 ⟨fun t ht => ?_, ih start⟩
      exact ⟨(ranked_bounds ht).1, by simp [isMarker]⟩
    | marker m =>
      refine List.pairwise_cons.2 ⟨fun t ht => ?_, ih (start + 1)⟩
      have hrank : start + 1 ≤ t.rank := (ranked_bounds ht).1
      exact ⟨by simp only; omega, fun _ => by simp only; omega⟩

end Piece

namespace Slot

def brace? (s : Slot) : Option Brace := Brace.ofPiece? s.piece

def text (s : Slot) : Text := s.piece.text

/-- The slots of a template. -/
def ofText (template : Text) : List Slot := Piece.ranked 0 (Piece.ofText template)

def segments (template : Text) : List (Segment Slot) := Segment.ofList brace? (ofText template)

theorem faithful_text (s : Slot) : Segment.Faithful brace? Brace.ofChar? text s := by
  obtain ⟨p, rank⟩ := s
  cases p with
  | char c =>
    unfold Segment.Faithful
    simp only [brace?, Brace.ofPiece?, text, Piece.text]
    cases h : Brace.ofChar? c with
    | none =>
      intro d hd
      rwa [List.mem_singleton.1 hd]
    | some b => exact ⟨c, rfl, h⟩
  | marker m =>
    have hcode : ∀ c ∈ m.text, Brace.ofChar? c = none := by
      cases m <;> simp [Marker.text, Marker.code, Brace.ofChar?]
    exact hcode

/-- **The fragments of a template are those of its text.** -/
theorem ofList_template (template : Text) :
    Segment.ofList Brace.ofChar? template = (segments template).flatMap (Segment.expand text) := by
  have htext : (ofText template).flatMap text = template := by
    have h := Piece.text_ofText template
    rwa [← Piece.map_piece_ranked (Piece.ofText template) 0, List.flatMap_map] at h
  rw [segments, ← Segment.ofList_flatMap fun s _ => faithful_text s, htext]

end Slot

/-! ## The first pass -/

namespace Context

variable (ctx : Context) (arguments : List Argument)

/-- What a slot becomes, given all arguments. -/
def fillSlot (s : Slot) : Except BuildError Text :=
  match s.piece with
  | .char c => .ok [c]
  | .marker m =>
    match arguments[s.rank]? with
    | some a => ctx.renderArgument m a
    | none => .error (.template (.missingArgument s.rank m.text arguments.length))

theorem scan_bind {α β : Type} (x : Scan α) (f : α → Scan β) (cursor : Cursor) :
    (x >>= f) cursor =
      match x cursor with
      | .ok a c => f a c
      | .error e c => .error e c := by
  simp only [bind, EStateM.bind]
  cases x cursor <;> rfl

theorem fill_char (c : Char) (cursor : Cursor) : ctx.fill (.char c) cursor = .ok [c] cursor := rfl

theorem fill_marker (m : Marker) (rank : Nat) :
    ctx.fill (.marker m) ⟨arguments, rank⟩ =
      match arguments[rank]? with
      | some a =>
        match ctx.renderArgument m a with
        | .ok t => .ok t ⟨arguments, rank + 1⟩
        | .error e => .error e ⟨arguments, rank + 1⟩
      | none => .error (.template (.missingArgument rank m.text arguments.length))
          ⟨arguments, rank⟩ := by
  rw [fill, scan_bind]
  by_cases h : rank < arguments.length
  · have hle : ¬(arguments.length : Int) ≤ rank := by omega
    have hget : arguments[rank]? = some arguments[rank] := List.getElem?_eq_getElem h
    have htake : Cursor.take m.text ⟨arguments, rank⟩ =
        .ok arguments[rank] ⟨arguments, rank + 1⟩ := by
      simp [Cursor.take, Cursor.current?, hget]
      omega
    rw [htake, hget]
    simp only
    cases ctx.renderArgument m arguments[rank] with
    | ok t => rfl
    | error e => rfl
  · have hle : (arguments.length : Int) ≤ rank := by omega
    have hget : arguments[rank]? = none := List.getElem?_eq_none (by omega)
    simp only [Cursor.take, hle, if_true, hget]

theorem mapM_fill_cons (p : Piece) (rest : List Piece) (cursor : Cursor) :
    (p :: rest).mapM ctx.fill cursor =
      match ctx.fill p cursor with
      | .ok t c =>
        match rest.mapM ctx.fill c with
        | .ok ts c => .ok (t :: ts) c
        | .error e c => .error e c
      | .error e c => .error e c := by
  rw [List.mapM_cons, scan_bind]
  cases ctx.fill p cursor with
  | ok t c =>
    simp only
    rw [scan_bind]
    cases rest.mapM ctx.fill c <;> rfl
  | error e c => rfl

theorem mapM_fill_eq (pieces : List Piece) (start : Nat) :
    match (Piece.ranked start pieces).mapM (ctx.fillSlot arguments) with
    | .ok ts => pieces.mapM ctx.fill ⟨arguments, start⟩ =
        .ok ts ⟨arguments, (start + Piece.markerCount pieces : Nat)⟩
    | .error e => ∃ c, pieces.mapM ctx.fill ⟨arguments, start⟩ = .error e c := by
  induction pieces generalizing start with
  | nil => rfl
  | cons p rest ih =>
    rw [mapM_fill_cons]
    cases p with
    | char c =>
      have ih := ih start
      rw [Piece.ranked, List.mapM_cons, Piece.markerCount_char, fill_char]
      cases h : (Piece.ranked start rest).mapM (ctx.fillSlot arguments) with
      | ok ts =>
        rw [h] at ih
        simp only [fillSlot, bind, Except.bind, pure, Except.pure, ih]
      | error e =>
        rw [h] at ih
        obtain ⟨c', hc'⟩ := ih
        simp only [fillSlot, bind, Except.bind, hc']
        exact ⟨c', rfl⟩
    | marker m =>
      have ih := ih (start + 1)
      have hstart : ((start : Int) + 1) = ((start + 1 : Nat) : Int) := rfl
      rw [Piece.ranked, List.mapM_cons, Piece.markerCount_marker, fill_marker]
      cases ha : arguments[start]? with
      | none =>
        simp only [fillSlot, ha, bind, Except.bind]
        exact ⟨_, rfl⟩
      | some a =>
        cases hr : ctx.renderArgument m a with
        | error e =>
          simp only [fillSlot, ha, hr, bind, Except.bind]
          exact ⟨_, rfl⟩
        | ok t =>
          cases h : (Piece.ranked (start + 1) rest).mapM (ctx.fillSlot arguments) with
          | ok ts =>
            rw [h] at ih
            simp only [fillSlot, ha, hr, bind, Except.bind, pure, Except.pure]
            rw [hstart, ih]
            simp only [EStateM.Result.ok.injEq, Cursor.mk.injEq, true_and]
            omega
          | error e =>
            rw [h] at ih
            obtain ⟨c', hc'⟩ := ih
            simp only [fillSlot, ha, hr, bind, Except.bind]
            rw [hstart, hc']
            exact ⟨c', rfl⟩

end Context

/-! ## Tokens of slots -/

/-- Whether an argument drops the fragment it is bound in. -/
def Argument.isSkip (a : Argument) : Bool :=
  match a.classify with
  | .ok .skip => true
  | _ => false

def Slot.takesSkip (arguments : List Argument) (s : Slot) : Bool :=
  s.piece.isMarker && arguments[s.rank]?.any Argument.isSkip

namespace Context

variable {ctx : Context} {arguments : List Argument}

theorem renderArgument_of_isSkip {m : Marker} {a : Argument} (h : a.isSkip) :
    ctx.renderArgument m a = .ok ctx.skipMarker := by
  rw [renderArgument]
  unfold Argument.isSkip at h
  split at h
  · rename_i ha
    rw [ha]
  · simp at h

theorem renderArgument_of_not_isSkip {m : Marker} {a : Argument} (h : a.isSkip = false)
    (skipMarker : Text) :
    { ctx with skipMarker }.renderArgument m a = ctx.renderArgument m a := by
  unfold renderArgument
  cases ha : a.classify with
  | error e => rfl
  | ok v =>
    cases v with
    | skip => simp [Argument.isSkip, ha] at h
    | datum d => cases m <;> rfl

theorem fillSlot_of_takesSkip {s : Slot} (h : s.takesSkip arguments) :
    ctx.fillSlot arguments s = .ok ctx.skipMarker := by
  obtain ⟨p, rank⟩ := s
  rw [Slot.takesSkip, Bool.and_eq_true] at h
  cases p with
  | char c => exact absurd h.1 (by simp [Piece.isMarker])
  | marker m =>
    obtain ⟨a, ha, hskip⟩ := (Option.any_eq_true _ _).1 h.2
    rw [fillSlot, ha]
    exact renderArgument_of_isSkip hskip

variable (ctx) in
theorem fillSlot_of_not_takesSkip {s : Slot} (h : s.takesSkip arguments = false)
    (skipMarker : Text) :
    { ctx with skipMarker }.fillSlot arguments s = ctx.fillSlot arguments s := by
  obtain ⟨p, rank⟩ := s
  cases p with
  | char c => rfl
  | marker m =>
    simp only [fillSlot]
    cases ha : arguments[rank]? with
    | none => rfl
    | some a =>
      refine renderArgument_of_not_isSkip ?_ skipMarker
      simpa [Slot.takesSkip, Piece.isMarker, ha] using h

variable (ctx arguments) in
def tokens (s : Slot) : List Token :=
  if s.takesSkip arguments then [.skip]
  else Token.ofText ((ctx.fillSlot arguments s).toOption.getD [])

theorem tokens_char (c : Char) (rank : Nat) :
    ctx.tokens arguments ⟨.char c, rank⟩ = [.char c] := rfl

variable (ctx) in
theorem tokens_skipMarker (skipMarker : Text) (s : Slot) :
    { ctx with skipMarker }.tokens arguments s = ctx.tokens arguments s := by
  unfold tokens
  cases h : s.takesSkip arguments with
  | true => rfl
  | false => rw [fillSlot_of_not_takesSkip ctx h]

theorem any_isSkip_tokens (s : Slot) :
    (ctx.tokens arguments s).any Token.isSkip = s.takesSkip arguments := by
  rw [tokens]
  cases h : s.takesSkip arguments with
  | true => rfl
  | false => exact Token.any_isSkip_ofText _

theorem faithful_tokens {s : Slot}
    (h : s.piece.isMarker → Segment.Braceless Token.brace? (ctx.tokens arguments s)) :
    Segment.Faithful Slot.brace? Token.brace? (ctx.tokens arguments) s := by
  obtain ⟨p, rank⟩ := s
  cases p with
  | char c =>
    unfold Segment.Faithful
    rw [tokens_char]
    simp only [Slot.brace?, Brace.ofPiece?]
    cases hc : Brace.ofChar? c with
    | none =>
      intro t ht
      rw [List.mem_singleton.1 ht]
      exact hc
    | some b => exact ⟨_, rfl, hc⟩
  | marker m => exact h rfl

theorem eq_text_tokens {s : Slot} {t : Text} (h : ctx.fillSlot arguments s = .ok t) :
    t = (ctx.tokens arguments s).flatMap (Token.text ctx.skipMarker) := by
  rw [tokens]
  split
  · rw [fillSlot_of_takesSkip ‹_›] at h
    simp [Token.text, Except.ok.inj h]
  · rw [Token.flatMap_text_ofText, h]
    rfl

theorem mapM_eq_ok_iff {α β ε : Type} {f : α → Except ε β} {g : α → β} {xs : List α} {ys : List β}
    (hg : ∀ x y, f x = .ok y → y = g x) :
    xs.mapM f = .ok ys ↔ (∀ x ∈ xs, f x = .ok (g x)) ∧ ys = xs.map g := by
  induction xs generalizing ys with
  | nil =>
    rw [List.mapM_nil, List.map_nil]
    exact ⟨fun h => ⟨by simp, (Except.ok.inj h).symm⟩, fun h => h.2 ▸ rfl⟩
  | cons x xs ih =>
    rw [List.mapM_cons, List.forall_mem_cons, List.map_cons]
    cases hx : f x with
    | error e => simp [bind, Except.bind]
    | ok y =>
      obtain rfl := hg x y hx
      cases hxs : xs.mapM f with
      | error e =>
        have hnot : ¬∀ x ∈ xs, f x = .ok (g x) := by
          intro h
          have hok := ih.2 ⟨h, rfl⟩
          rw [hxs] at hok
          simp at hok
        simp [bind, Except.bind, hnot]
      | ok ys' =>
        obtain ⟨hall, rfl⟩ := ih.1 hxs
        simp only [bind, Except.bind, pure, Except.pure, Except.ok.injEq, true_and]
        exact ⟨fun h => ⟨hall, h.symm⟩, fun h => h.2.symm⟩

/-- **The first pass fills every slot on its own.** It succeeds when each slot can be filled, and
then it has used one argument for each marker. -/
theorem substitute_eq_ok_iff {template text : Text} {cursor : Cursor} :
    ctx.substitute template (.start arguments) = .ok text cursor ↔
      (∀ s ∈ Slot.ofText template, ctx.fillSlot arguments s =
        .ok ((ctx.tokens arguments s).flatMap (Token.text ctx.skipMarker))) ∧
      text = ((Slot.ofText template).flatMap (ctx.tokens arguments)).flatMap
        (Token.text ctx.skipMarker) ∧
      cursor = ⟨arguments, Piece.markerCount (Piece.ofText template)⟩ := by
  have h := mapM_fill_eq ctx arguments (Piece.ofText template) 0
  have hstart : Cursor.start arguments = ⟨arguments, (0 : Nat)⟩ := rfl
  have hslots : ∀ ts, (Slot.ofText template).mapM (ctx.fillSlot arguments) = .ok ts ↔ _ :=
    fun _ => mapM_eq_ok_iff fun _ _ => eq_text_tokens
  rw [substitute, scan_bind, hstart]
  cases hts : (Piece.ranked 0 (Piece.ofText template)).mapM (ctx.fillSlot arguments) with
  | ok ts =>
    obtain ⟨hall, rfl⟩ := (hslots ts).1 hts
    rw [hts, Nat.zero_add] at h
    simp only [h, pure, EStateM.pure, EStateM.Result.ok.injEq, List.flatMap_assoc]
    rw [← List.flatMap_def]
    exact ⟨fun h => ⟨hall, h.1.symm, h.2.symm⟩, fun h => ⟨h.2.1.symm, h.2.2.symm⟩⟩
  | error e =>
    rw [hts] at h
    obtain ⟨c, hc⟩ := h
    simp only [hc, reduceCtorEq, false_iff, not_and]
    intro hall
    have hok := (hslots _).2 ⟨hall, rfl⟩
    rw [Slot.ofText, hts] at hok
    simp at hok

/-! ## What markers leave -/

variable (ctx arguments) in
/-- Every argument that a marker takes, a skip apart, leaves a text with the property `P`. -/
def Renders (template : Text) (P : Text → Prop) : Prop :=
  ∀ m i a, ⟨.marker m, i⟩ ∈ Slot.ofText template → arguments[i]? = some a → a.isSkip = false →
    ∃ t, ctx.renderArgument m a = .ok t ∧ P t

variable {template : Text} {P : Text → Prop}

theorem Renders.fillSlot (h : ctx.Renders arguments template P) {s : Slot}
    (hs : s ∈ Slot.ofText template) (hm : s.piece.isMarker) (hskip : s.takesSkip arguments = false)
    (hrank : s.rank < arguments.length) : ∃ t, ctx.fillSlot arguments s = .ok t ∧ P t := by
  obtain ⟨p, rank⟩ := s
  cases p with
  | char c => simp [Piece.isMarker] at hm
  | marker m =>
    have ha : arguments[rank]? = some arguments[rank] := List.getElem?_eq_getElem hrank
    have hnot : arguments[rank].isSkip = false := by
      simpa [Slot.takesSkip, Piece.isMarker, ha] using hskip
    simp only [Context.fillSlot, ha]
    exact h m rank arguments[rank] hs ha hnot

theorem rank_lt_of_fillSlot {s : Slot} {t : Text} (hm : s.piece.isMarker)
    (h : ctx.fillSlot arguments s = .ok t) : s.rank < arguments.length := by
  obtain ⟨p, rank⟩ := s
  cases p with
  | char c => simp [Piece.isMarker] at hm
  | marker m =>
    by_contra hrank
    simp [Context.fillSlot, List.getElem?_eq_none (Nat.le_of_not_lt hrank)] at h

theorem mem_template_of_char {c : Char} {rank : Nat} (h : ⟨.char c, rank⟩ ∈ Slot.ofText template) :
    c ∈ template := by
  have hp : Piece.char c ∈ Piece.ofText template := by
    rw [← Piece.map_piece_ranked (Piece.ofText template) 0]
    exact List.mem_map_of_mem h
  rw [← Piece.text_ofText template]
  exact List.mem_flatMap.2 ⟨_, hp, List.mem_singleton_self c⟩

theorem Renders.mono {Q : Text → Prop} (h : ctx.Renders arguments template P)
    (himp : ∀ t, P t → Q t) : ctx.Renders arguments template Q := by
  intro m i a hs ha hskip
  obtain ⟨t, ht, hP⟩ := h m i a hs ha hskip
  exact ⟨t, ht, himp t hP⟩

theorem Renders.of_mem_tokens {Q : Char → Prop} (h : ctx.Renders arguments template (∀ c ∈ ·, Q c))
    {s : Slot} (hs : s ∈ Slot.ofText template) (hm : s.piece.isMarker) {c : Char}
    (hc : Token.char c ∈ ctx.tokens arguments s) : Q c := by
  rw [tokens] at hc
  split at hc
  · simp at hc
  · rename_i hskip
    rw [Bool.not_eq_true] at hskip
    cases ht : ctx.fillSlot arguments s with
    | error e => simp [ht, Except.toOption, Token.ofText] at hc
    | ok t =>
      obtain ⟨t', ht', hP⟩ := h.fillSlot hs hm hskip (rank_lt_of_fillSlot hm ht)
      have hmem : c ∈ t := by simpa [ht, Except.toOption, Token.ofText] using hc
      rw [ht] at ht'
      exact hP c (Except.ok.inj ht' ▸ hmem)

theorem Renders.faithful_tokens
    (h : ctx.Renders arguments template (∀ c ∈ ·, c ≠ '{' ∧ c ≠ '}')) {s : Slot}
    (hs : s ∈ Slot.ofText template) :
    Segment.Faithful Slot.brace? Token.brace? (ctx.tokens arguments) s := by
  apply Context.faithful_tokens
  intro hm t ht
  cases t with
  | skip => rfl
  | char c =>
    obtain ⟨hopen, hclose⟩ := h.of_mem_tokens hs hm ht
    rw [Token.brace?, Brace.ofChar?, if_neg hopen, if_neg hclose]

theorem nul_not_mem_tokens (h : ctx.Renders arguments template (∀ c ∈ ·, c ≠ '\x00'))
    (htemplate : '\x00' ∉ template) :
    Token.char '\x00' ∉ (Slot.ofText template).flatMap (ctx.tokens arguments) := by
  intro hmem
  obtain ⟨⟨p, rank⟩, hs, hc⟩ := List.mem_flatMap.1 hmem
  cases p with
  | char d =>
    have hd : '\x00' = d := by simpa [tokens_char] using hc
    exact htemplate (hd ▸ mem_template_of_char hs)
  | marker m => exact h.of_mem_tokens hs rfl hc rfl

end Context

/-! ## Builds -/

namespace Handler

def context (h : Handler) (nonce : Nonce) : Context := ⟨h.escaper, h.settings, nonce.skipMarker⟩

variable {h : Handler} {nonce : Nonce} {template text : Text} {arguments : List Argument}

theorem outcome_of_substitute {cursor : Cursor}
    (hsub : (h.context nonce).substitute template (.start arguments) = .ok text cursor) :
    (h.compile nonce template arguments).outcome =
      .ok ⟨((h.context nonce).collapse {} text).text, h.escaper.dialect, cursor.position,
        arguments.length⟩ := by
  rw [context] at hsub
  simp only [compile, hsub]
  rfl

/-- A build succeeds exactly when every slot can be filled, and then it gives the tokens of the
slots with their fragments collapsed. -/
theorem build_eq_ok_iff {sql : Text}
    (hnul : Token.char '\x00' ∉ (Slot.ofText template).flatMap
      ((h.context nonce).tokens arguments)) :
    h.build nonce template arguments = .ok sql ↔
      (∀ s ∈ Slot.ofText template, ∃ t, (h.context nonce).fillSlot arguments s = .ok t) ∧
      sql = (Token.collapse ((Slot.ofText template).flatMap
        ((h.context nonce).tokens arguments))).flatMap (Token.text h.settings.skipLiteral) := by
  rw [build]
  cases hsub : (h.context nonce).substitute template (.start arguments) with
  | ok text cursor =>
    obtain ⟨hall, rfl, -⟩ := Context.substitute_eq_ok_iff.1 hsub
    have hmarker : (h.context nonce).skipMarker = nonce.skipMarker := rfl
    rw [outcome_of_substitute hsub, Except.map]
    simp only [Except.ok.injEq]
    rw [hmarker, Context.collapse_text hmarker hnul]
    exact ⟨fun heq => ⟨fun s hs => ⟨_, hall s hs⟩, heq.symm⟩, fun heq => heq.2.symm⟩
  | error e cursor =>
    have hout : (h.compile nonce template arguments).outcome = .error e := by
      rw [context] at hsub
      simp only [compile, hsub]
    rw [hout, Except.map]
    simp only [reduceCtorEq, false_iff, not_and]
    intro hall
    have hfill : ∀ s ∈ Slot.ofText template, (h.context nonce).fillSlot arguments s =
        .ok (((h.context nonce).tokens arguments s).flatMap
          (Token.text (h.context nonce).skipMarker)) := by
      intro s hs
      obtain ⟨t, ht⟩ := hall s hs
      rw [ht, ← Context.eq_text_tokens ht]
    have hok := Context.substitute_eq_ok_iff.2 ⟨hfill, rfl, rfl⟩
    rw [hsub] at hok
    simp at hok

end Handler

end QueryTemplate
