import QueryTemplate.Proofs.Inserted
import QueryTemplate.Proofs.Slot

/-!
# How far string data reaches

The fragments of a query are found after the data is put in, so the braces of a string take part in
them. This module says exactly when a string that a generic marker takes stays within its literal
(`build_text_eq_iff`): outside dropped fragments when its braces find no partner, and in a dropped
fragment when it has no braces, or braces that only make more fragments to drop.
-/

namespace QueryTemplate

open Segment

/-- A slot stands in a fragment of the template in which some marker takes a skip. -/
def Slot.InDroppedFragment (template : Text) (arguments : List Argument) (s : Slot) : Prop :=
  ∃ inner, .fragment inner ∈ Slot.segments template ∧ s ∈ inner ∧
    inner.any (Slot.takesSkip arguments)

namespace Token

/-- A fragment goes around the cut between `before` and `after` and holds `a` and `b` there. -/
def Enclosed (before after a b : List Token) : Prop :=
  ∃ x y, before = x ++ .char '{' :: a ∧ after = b ++ .char '}' :: y ∧
    Braceless brace? a ∧ Braceless brace? b

def Dropped (before after : List Token) : Prop :=
  ∃ a b, Enclosed before after a b ∧ (a ++ b).any isSkip

theorem eq_of_brace?_opening {t : Token} (h : brace? t = some .opening) : t = char '{' := by
  cases t with
  | char c => rw [Brace.ofChar?_eq_opening.1 h]
  | skip => simp [brace?] at h

theorem eq_of_brace?_closing {t : Token} (h : brace? t = some .closing) : t = char '}' := by
  cases t with
  | char c => rw [Brace.ofChar?_eq_closing.1 h]
  | skip => simp [brace?] at h

theorem exists_enclosed {before after : List Token} (hopen : EndsOpen brace? before)
    (hclosed : StartsClosed brace? after) : ∃ a b, Enclosed before after a b := by
  obtain ⟨x, o, a, rfl, ho, ha⟩ := exists_of_endsOpen hopen
  obtain ⟨b, c, y, rfl, hb, hc⟩ := exists_of_startsClosed hclosed
  obtain rfl := eq_of_brace?_opening ho
  obtain rfl := eq_of_brace?_closing hc
  exact ⟨a, b, x, y, rfl, rfl, ha, hb⟩

theorem Enclosed.unique {before after a b a' b' : List Token} (h : Enclosed before after a b)
    (h' : Enclosed before after a' b') : a = a' ∧ b = b' := by
  obtain ⟨x, y, hx, hy, ha, hb⟩ := h
  obtain ⟨x', y', hx', hy', ha', hb'⟩ := h'
  exact ⟨Braceless.eq_of_last_brace (hx.symm.trans hx') brace?_opening brace?_opening ha ha',
    Braceless.eq_of_first_brace (hy.symm.trans hy') brace?_closing brace?_closing hb hb'⟩

theorem exists_pair {ks : List Brace} (hne : ks ≠ []) (hfirst : ks.head? ≠ some .closing)
    (hlast : ks.getLast? ≠ some .opening) : [Brace.opening, .closing] <:+: ks := by
  induction ks with
  | nil => exact absurd rfl hne
  | cons k ks ih =>
    cases k with
    | closing => exact absurd rfl hfirst
    | opening =>
      cases ks with
      | nil => exact absurd rfl hlast
      | cons k' ks =>
        cases k' with
        | closing => exact ⟨[], ks, rfl⟩
        | opening =>
          have htail := ih (by simp) (by simp) (by rwa [List.getLast?_cons_cons] at hlast)
          exact htail.trans (List.suffix_cons _ _).isInfix

/-- Between an opening and a closing brace, data is unpaired exactly if it has no brace. -/
theorem unpaired_iff_braceless {before data after : List Token} (hopen : EndsOpen brace? before)
    (hclosed : StartsClosed brace? after) :
    Unpaired before data after ↔ Braceless brace? data := by
  constructor
  · intro h
    by_contra hdata
    rw [← braces_eq_nil_iff] at hdata
    exact h.inner (exists_pair hdata (fun hfirst => h.outer_left ⟨hopen, hfirst⟩)
      fun hlast => h.outer_right ⟨hlast, hclosed⟩)
  · intro h
    refine ⟨fun h' => h.not_startsClosed h'.2, ?_, fun h' => h.not_endsOpen h'.1⟩
    rw [braces_eq_nil_iff.2 h]
    simp

theorem unpaired_congr {before data data' after : List Token}
    (h : braces brace? data = braces brace? data') :
    Unpaired before data after ↔ Unpaired before data' after := by
  have himp : ∀ {d d' : List Token}, braces brace? d = braces brace? d' →
      Unpaired before d after → Unpaired before d' after := by
    intro d d' hd hu
    refine ⟨?_, ?_, ?_⟩
    · rw [StartsClosed, ← hd]
      exact hu.outer_left
    · rw [← hd]
      exact hu.inner
    · rw [EndsOpen, ← hd]
      exact hu.outer_right
  exact ⟨himp h, himp h.symm⟩

/-- **Where a literal is kept.** Unless it stands in a dropped fragment, the text around it does not
depend on the string exactly if the braces of the string find no partner. -/
theorem exists_kept_iff {before after : List Token} (literal : Text) (style : EscapeStyle)
    (h : ¬Dropped before after) :
    ∃ pre post, ∀ s, (collapse (before ++ quoted style s ++ after)).flatMap (text literal) =
        pre ++ style.quote s ++ post ↔ Unpaired before (ofText s) after := by
  have hbraces : ∀ s, braces brace? (quoted style s) = braces brace? (ofText s) := by
    intro s
    rw [braces_quoted, braces_ofText]
  by_cases hcross : EndsOpen brace? before ∧ StartsClosed brace? after
  · obtain ⟨a, b, henclosed⟩ := exists_enclosed hcross.1 hcross.2
    have hskip : (a ++ b).any isSkip = false := by
      by_contra hskip
      rw [Bool.not_eq_false] at hskip
      exact h ⟨a, b, henclosed, hskip⟩
    obtain ⟨x, y, rfl, rfl, ha, hb⟩ := henclosed
    refine ⟨(collapse x ++ a).flatMap (text literal), (b ++ collapse y).flatMap (text literal),
      fun s => ?_⟩
    have hcut : x ++ .char '{' :: a ++ quoted style s ++ (b ++ .char '}' :: y) =
        x ++ .char '{' :: (a ++ quoted style s ++ b ++ .char '}' :: y) := by simp
    rw [hcut, collapse_enclosed_eq_iff literal style s ha hb hskip,
      ← unpaired_congr (hbraces s), unpaired_iff_braceless hcross.1 hcross.2, braceless_quoted]
  · refine ⟨(collapse before).flatMap (text literal), (collapse after).flatMap (text literal),
      fun s => ?_⟩
    have hquoted : (quoted style s).flatMap (text literal) = style.quote s :=
      flatMap_text_ofText literal _
    rw [← hquoted, collapse_between_eq_iff literal hcross, unpaired_congr (hbraces s)]

/-- **Where a literal is dropped.** In a fragment with a skip, the text does not depend on the
string exactly if the string has no brace or makes more such fragments. -/
theorem exists_dropped_iff {before after a b : List Token} {literal : Text}
    (hliteral : literal ≠ []) (style : EscapeStyle) (h : Enclosed before after a b)
    (hskip : (a ++ b).any isSkip) :
    ∃ rest, ∀ s, (collapse (before ++ quoted style s ++ after)).flatMap (text literal) = rest ↔
      Braceless Brace.ofChar? s ∨ a.any isSkip ∧ b.any isSkip ∧ Rejoins s := by
  obtain ⟨x, y, rfl, rfl, ha, hb⟩ := h
  refine ⟨(collapse x).flatMap (text literal) ++ (collapse y).flatMap (text literal),
    fun s => ?_⟩
  have hcut : x ++ .char '{' :: a ++ quoted style s ++ (b ++ .char '}' :: y) =
      x ++ .char '{' :: (a ++ quoted style s ++ b ++ .char '}' :: y) := by simp
  have hnil : ∀ ts : List Token, ts.flatMap (text literal) = [] ↔ ts = [] := by
    intro ts
    cases ts with
    | nil => simp
    | cons t ts => cases t <;> simp [text, hliteral]
  rw [← collapse_dropped_eq_nil_iff style s ha hb hskip, hcut, collapse_delimited, ← hnil]
  simp

end Token

/-! ## Replacing one argument -/

namespace Slot

variable {arguments : List Argument} {s : Slot} {i : Nat}

theorem takesSkip_set (h : s.piece.isMarker → s.rank ≠ i) (a : Argument) :
    s.takesSkip (arguments.set i a) = s.takesSkip arguments := by
  unfold takesSkip
  cases hm : s.piece.isMarker with
  | false => rfl
  | true => rw [List.getElem?_set_ne (Ne.symm (h hm))]

theorem fillSlot_set (ctx : Context) (h : s.piece.isMarker → s.rank ≠ i) (a : Argument) :
    ctx.fillSlot (arguments.set i a) s = ctx.fillSlot arguments s := by
  obtain ⟨p, rank⟩ := s
  cases p with
  | char c => rfl
  | marker m =>
    have hget : (arguments.set i a)[rank]? = arguments[rank]? :=
      List.getElem?_set_ne (Ne.symm (h rfl))
    simp only [Context.fillSlot]
    rw [hget, List.length_set]

theorem tokens_set (ctx : Context) (h : s.piece.isMarker → s.rank ≠ i) (a : Argument) :
    ctx.tokens (arguments.set i a) s = ctx.tokens arguments s := by
  unfold Context.tokens
  rw [takesSkip_set h, fillSlot_set ctx h]

theorem exists_split {template : Text} {m : Marker} (h : ⟨.marker m, i⟩ ∈ ofText template) :
    ∃ left right, ofText template = left ++ ⟨.marker m, i⟩ :: right ∧
      ∀ s ∈ left ++ right, s.piece.isMarker → s.rank ≠ i := by
  obtain ⟨left, right, hsplit⟩ := List.append_of_mem h
  refine ⟨left, right, hsplit, fun s hs hm => ?_⟩
  have hpairs := Piece.pairwise_ranked (Piece.ofText template) 0
  rw [← ofText, hsplit, List.pairwise_append] at hpairs
  obtain ⟨-, hright, hleft⟩ := hpairs
  rcases List.mem_append.1 hs with hs | hs
  · have hlt := (hleft s hs _ List.mem_cons_self).2 hm
    exact Nat.ne_of_lt hlt
  · have hlt := ((List.pairwise_cons.1 hright).1 s hs).2 rfl
    exact Nat.ne_of_gt hlt

theorem eq_of_split {slots x y left right : List Slot} (h : slots = x ++ s :: y) (hx : s ∉ x)
    (hy : s ∉ y) (hsplit : slots = left ++ s :: right) : left = x ∧ right = y := by
  obtain ⟨rfl, -, rfl⟩ := (List.append_cons_inj_of_notMem hx hy).1 (h.symm.trans hsplit)
  exact ⟨rfl, rfl⟩

end Slot

namespace Context

open Token

variable {ctx : Context} {b : Builtin} {template : Text} {arguments : List Argument} {i : Nat}
  {left right : List Slot}

theorem fillSlot_text (hescaper : ctx.escaper = .builtin b) {s : Text}
    (h : arguments[i]? = some (.scalar (.text s))) :
    ctx.fillSlot arguments ⟨.marker .generic, i⟩ = .ok (b.style.quote s) := by
  simp only [fillSlot, h]
  simp only [renderArgument, Argument.classify, render, literal, scalarLiteral, hescaper,
    Escaper.quote]

theorem tokens_text (hescaper : ctx.escaper = .builtin b) {s : Text}
    (h : arguments[i]? = some (.scalar (.text s))) :
    ctx.tokens arguments ⟨.marker .generic, i⟩ = quoted b.style s := by
  have hkeep : Slot.takesSkip arguments ⟨.marker .generic, i⟩ = false := by
    simp only [Slot.takesSkip, h]
    rfl
  rw [tokens, hkeep, fillSlot_text hescaper h]
  rfl

theorem flatMap_tokens_set_text (hescaper : ctx.escaper = .builtin b)
    (hsplit : Slot.ofText template = left ++ ⟨.marker .generic, i⟩ :: right)
    (hother : ∀ s ∈ left ++ right, s.piece.isMarker → s.rank ≠ i) (hi : i < arguments.length)
    (s : Text) :
    (Slot.ofText template).flatMap (ctx.tokens (arguments.set i (.scalar (.text s)))) =
      left.flatMap (ctx.tokens arguments) ++ quoted b.style s ++
        right.flatMap (ctx.tokens arguments) := by
  have hsame : ∀ slots : List Slot, (∀ s ∈ slots, s ∈ left ++ right) →
      slots.flatMap (ctx.tokens (arguments.set i (.scalar (.text s)))) =
        slots.flatMap (ctx.tokens arguments) := by
    intro slots hslots
    apply List.flatMap_congr
    intro s hs
    exact Slot.tokens_set _ (hother s (hslots s hs)) _
  rw [hsplit, List.flatMap_append, List.flatMap_cons,
    tokens_text hescaper (List.getElem?_set_self hi),
    hsame left fun s hs => List.mem_append_left _ hs,
    hsame right fun s hs => List.mem_append_right _ hs, List.append_assoc]

end Context

namespace Handler

open Token

variable {b : Builtin} {nonce : Nonce} {template : Text} {arguments : List Argument} {i : Nat}
  {left right : List Slot}

theorem build_set_text {h : Handler} (hescaper : h.escaper = .builtin b)
    (hsplit : Slot.ofText template = left ++ ⟨.marker .generic, i⟩ :: right)
    (hother : ∀ s ∈ left ++ right, s.piece.isMarker → s.rank ≠ i) (hi : i < arguments.length)
    (hnul : char '\x00' ∉ (Slot.ofText template).flatMap ((h.context nonce).tokens arguments))
    (hbuild : ∃ sql, h.build nonce template arguments = .ok sql) {s : Text}
    (hs : '\x00' ∉ b.style.quote s) :
    h.build nonce template (arguments.set i (.scalar (.text s))) =
      .ok ((collapse (left.flatMap ((h.context nonce).tokens arguments) ++ quoted b.style s ++
        right.flatMap ((h.context nonce).tokens arguments))).flatMap
          (text h.settings.skipLiteral)) := by
  have hcontext : (h.context nonce).escaper = .builtin b := hescaper
  have htokens := Context.flatMap_tokens_set_text hcontext hsplit hother hi s
  rw [← htokens, build_eq_ok_iff]
  · refine ⟨fun slot hslot => ?_, rfl⟩
    obtain ⟨sql, hsql⟩ := hbuild
    obtain ⟨t, ht⟩ := ((build_eq_ok_iff hnul).1 hsql).1 slot hslot
    by_cases heq : slot = ⟨.marker .generic, i⟩
    · rw [heq]
      exact ⟨_, Context.fillSlot_text hcontext (List.getElem?_set_self hi)⟩
    · have hmem : slot ∈ left ++ right := by
        rw [hsplit, List.mem_append, List.mem_cons] at hslot
        rw [List.mem_append]
        tauto
      exact ⟨t, (Slot.fillSlot_set _ (hother slot hmem) _).trans ht⟩
  · rw [hsplit, List.flatMap_append, List.flatMap_cons, List.mem_append, List.mem_append] at hnul
    rw [htokens, List.mem_append, List.mem_append]
    rintro ((hmem | hmem) | hmem)
    · exact hnul (.inl hmem)
    · obtain ⟨c, hc, heq⟩ := List.mem_map.1 hmem
      exact hs (Token.char.inj heq ▸ hc)
    · exact hnul (.inr (.inr hmem))

end Handler

/-! ## Fragments of the template -/

namespace Context

open Token

variable {ctx : Context} {template : Text} {arguments : List Argument} {left right : List Slot}
  {slot : Slot}

theorem any_isSkip_flatMap_tokens (slots : List Slot) :
    (slots.flatMap (ctx.tokens arguments)).any isSkip = slots.any (Slot.takesSkip arguments) := by
  rw [List.any_flatMap]
  congr 1
  funext s
  exact any_isSkip_tokens s

theorem enclosed_flatMap_tokens {x a b y : List Slot} {o c : Slot}
    (hfaithful : ∀ s ∈ (x ++ o :: a) ++ (b ++ c :: y),
      Faithful Slot.brace? brace? (ctx.tokens arguments) s)
    (ho : o.brace? = some .opening) (ha : Braceless Slot.brace? a)
    (hb : Braceless Slot.brace? b) (hc : c.brace? = some .closing) :
    Enclosed ((x ++ o :: a).flatMap (ctx.tokens arguments))
      ((b ++ c :: y).flatMap (ctx.tokens arguments)) (a.flatMap (ctx.tokens arguments))
      (b.flatMap (ctx.tokens arguments)) := by
  obtain ⟨t, ht, hbt⟩ := (hfaithful o (by simp)).of_some ho
  obtain ⟨u, hu, hbu⟩ := (hfaithful c (by simp)).of_some hc
  obtain rfl := eq_of_brace?_opening hbt
  obtain rfl := eq_of_brace?_closing hbu
  refine ⟨x.flatMap (ctx.tokens arguments), y.flatMap (ctx.tokens arguments), ?_, ?_,
    ha.flatMap fun s hs => hfaithful s (by simp [hs]),
    hb.flatMap fun s hs => hfaithful s (by simp [hs])⟩
  · rw [List.flatMap_append, List.flatMap_cons, ht]
    rfl
  · rw [List.flatMap_append, List.flatMap_cons, hu]
    rfl

theorem inDroppedFragment_crossing {x a b y : List Slot} {o c : Slot}
    (hsplit : Slot.ofText template = (x ++ o :: a) ++ slot :: (b ++ c :: y))
    (hnone : slot.brace? = none) (hother : slot ∉ (x ++ o :: a) ++ (b ++ c :: y))
    (ho : o.brace? = some .opening) (ha : Braceless Slot.brace? a)
    (hb : Braceless Slot.brace? b) (hc : c.brace? = some .closing) :
    slot.InDroppedFragment template arguments ↔
      (a ++ slot :: b).any (Slot.takesSkip arguments) := by
  have hslot : Braceless Slot.brace? (slot :: b) := List.forall_mem_cons.2 ⟨hnone, hb⟩
  have hsegments : Slot.segments template =
      ofList Slot.brace? x ++ .fragment (a ++ slot :: b) :: ofList Slot.brace? y := by
    rw [Slot.segments, hsplit, ← List.cons_append, ofList_append_of_crossing ho ha hslot hc]
  constructor
  · rintro ⟨inner, hinner, hmem, hdrop⟩
    rw [hsegments, List.mem_append, List.mem_cons] at hinner
    rcases hinner with hinner | hinner | hinner
    · have hx : slot ∈ x := mem_of_mem_content hinner hmem
      exact absurd (by simp [hx]) hother
    · rwa [Segment.fragment.inj hinner] at hdrop
    · have hy : slot ∈ y := mem_of_mem_content hinner hmem
      exact absurd (by simp [hy]) hother
  · intro hdrop
    exact ⟨a ++ slot :: b, by simp [hsegments], by simp, hdrop⟩

theorem not_inDroppedFragment (hsplit : Slot.ofText template = left ++ slot :: right)
    (hnone : slot.brace? = none) (hother : slot ∉ left ++ right)
    (hcross : ¬(EndsOpen Slot.brace? left ∧ StartsClosed Slot.brace? right)) :
    ¬slot.InDroppedFragment template arguments := by
  have hclosed : StartsClosed Slot.brace? (slot :: right) ↔ StartsClosed Slot.brace? right := by
    rw [StartsClosed, braces_cons_none hnone]
    rfl
  have hne : slot.brace? ≠ some .opening := by simp [hnone]
  have hsegments : Slot.segments template =
      ofList Slot.brace? left ++ .plain slot :: ofList Slot.brace? right := by
    rw [Slot.segments, hsplit, ofList_append (by rwa [hclosed]), ofList_cons_of_ne_opening hne]
  rintro ⟨inner, hinner, hmem, -⟩
  rw [hsegments, List.mem_append, List.mem_cons] at hinner
  rcases hinner with hinner | hinner | hinner
  · have hleft : slot ∈ left := mem_of_mem_content hinner hmem
    exact hother (List.mem_append_left _ hleft)
  · cases hinner
  · have hright : slot ∈ right := mem_of_mem_content hinner hmem
    exact hother (List.mem_append_right _ hright)

/-- As long as the other slots leave no brace, the fragments around a slot that takes no skip are
those of the template. -/
theorem dropped_iff_inDroppedFragment (hsplit : Slot.ofText template = left ++ slot :: right)
    (hnone : slot.brace? = none) (hkeep : slot.takesSkip arguments = false)
    (hother : slot ∉ left ++ right)
    (hfaithful : ∀ s ∈ left ++ right, Faithful Slot.brace? brace? (ctx.tokens arguments) s) :
    Dropped (left.flatMap (ctx.tokens arguments)) (right.flatMap (ctx.tokens arguments)) ↔
      slot.InDroppedFragment template arguments := by
  by_cases hcross : EndsOpen Slot.brace? left ∧ StartsClosed Slot.brace? right
  · obtain ⟨x, o, a, rfl, ho, ha⟩ := exists_of_endsOpen hcross.1
    obtain ⟨b, c, y, rfl, hb, hc⟩ := exists_of_startsClosed hcross.2
    have henclosed := enclosed_flatMap_tokens hfaithful ho ha hb hc
    have hany : (a ++ slot :: b).any (Slot.takesSkip arguments) =
        (a.flatMap (ctx.tokens arguments) ++ b.flatMap (ctx.tokens arguments)).any isSkip := by
      rw [← List.flatMap_append, any_isSkip_flatMap_tokens, List.any_append, List.any_append,
        List.any_cons, hkeep, Bool.false_or]
    rw [inDroppedFragment_crossing hsplit hnone hother ho ha hb hc, hany]
    constructor
    · rintro ⟨a', b', henclosed', hskip⟩
      obtain ⟨rfl, rfl⟩ := henclosed.unique henclosed'
      exact hskip
    · intro hskip
      exact ⟨_, _, henclosed, hskip⟩
  · have hleft : braces brace? (left.flatMap (ctx.tokens arguments)) = braces Slot.brace? left :=
      braces_flatMap fun s hs => hfaithful s (List.mem_append_left _ hs)
    have hright : braces brace? (right.flatMap (ctx.tokens arguments)) = braces Slot.brace? right :=
      braces_flatMap fun s hs => hfaithful s (List.mem_append_right _ hs)
    refine iff_of_false ?_ (not_inDroppedFragment hsplit hnone hother hcross)
    rintro ⟨a, b, ⟨x, y, hx, hy, ha, hb⟩, -⟩
    refine hcross ⟨?_, ?_⟩
    · rw [EndsOpen, ← hleft, hx]
      exact endsOpen_of_pair brace?_opening ha
    · rw [StartsClosed, ← hright, hy]
      exact startsClosed_of_pair hb brace?_closing

end Context

namespace Handler

open Token

/-- **How far a string reaches.** A generic marker takes a string, and another string takes its
place, without a NUL anywhere. Unless the literal stands in a dropped fragment, the text before and
behind it stays the same exactly if the braces of the string find no partner. In a dropped fragment,
the query stays the same exactly if the string has no brace, or its braces only make more dropped
fragments. If no other argument leaves a brace, the dropped fragments are those of the template. -/
theorem build_text_eq_iff (h : Handler) (b : Builtin) (hescaper : h.escaper = .builtin b)
    (nonce : Nonce) (template : Text) (arguments : List Argument) (i : Nat) (a : Argument)
    (s : Text) (hnul : '\x00' ∉ template) (hslot : ⟨.marker .generic, i⟩ ∈ Slot.ofText template)
    (ha : arguments[i]? = some a) (hs : a.classify = .ok (.datum (.scalar (.text s))))
    (hbuild : ∃ sql, h.build nonce template arguments = .ok sql)
    (hargs : (h.context nonce).Renders arguments template (∀ c ∈ ·, c ≠ '\x00')) :
    ∃ left right before after,
      Slot.ofText template = left ++ ⟨.marker .generic, i⟩ :: right ∧
      before = left.flatMap ((h.context nonce).tokens arguments) ∧
      after = right.flatMap ((h.context nonce).tokens arguments) ∧
      (¬Dropped before after →
        ∃ pre post, ∀ s', '\x00' ∉ b.style.quote s' →
          ∃ sql, h.build nonce template (arguments.set i (.scalar (.text s'))) = .ok sql ∧
            (sql = pre ++ b.style.quote s' ++ post ↔ Unpaired before (ofText s') after)) ∧
      (∀ p q, Enclosed before after p q → (p ++ q).any isSkip →
        ∃ rest, ∀ s', '\x00' ∉ b.style.quote s' →
          ∃ sql, h.build nonce template (arguments.set i (.scalar (.text s'))) = .ok sql ∧
            (sql = rest ↔
              Braceless Brace.ofChar? s' ∨ p.any isSkip ∧ q.any isSkip ∧ Rejoins s')) ∧
      ((∀ slot ∈ left ++ right, slot.piece.isMarker →
          Braceless brace? ((h.context nonce).tokens arguments slot)) →
        (Dropped before after ↔
          Slot.InDroppedFragment template arguments ⟨.marker .generic, i⟩)) := by
  obtain ⟨left, right, hsplit, hother⟩ := Slot.exists_split hslot
  have hi : i < arguments.length := (List.getElem?_eq_some_iff.1 ha).1
  have hnone := Context.nul_not_mem_tokens hargs hnul
  have hset := fun s' => build_set_text (s := s') hescaper hsplit hother hi hnone hbuild
  refine ⟨left, right, _, _, hsplit, rfl, rfl, ?_, ?_, ?_⟩
  · intro hkept
    obtain ⟨pre, post, hiff⟩ := exists_kept_iff h.settings.skipLiteral b.style hkept
    exact ⟨pre, post, fun s' hs' => ⟨_, hset s' hs', hiff s'⟩⟩
  · intro p q henclosed hskip
    obtain ⟨rest, hiff⟩ := exists_dropped_iff h.settings.skipLiteral_ne_nil b.style henclosed hskip
    exact ⟨rest, fun s' hs' => ⟨_, hset s' hs', hiff s'⟩⟩
  · intro hbraceless
    apply Context.dropped_iff_inDroppedFragment hsplit rfl
    · simp [Slot.takesSkip, ha, Argument.isSkip, hs]
    · intro hmem
      exact hother _ hmem rfl rfl
    · intro slot hslot
      exact Context.faithful_tokens (hbraceless slot hslot)

theorem slots_question : Slot.ofText ['?'] = [⟨.marker .generic, 0⟩] := by decide

theorem build_question (nonce : Nonce) {s : Text} (hs : '\x00' ∉ EscapeStyle.backslash.quote s) :
    (⟨.builtin .mysql, {}⟩ : Handler).build nonce ['?'] [.scalar (.text s)] =
      .ok ((collapse (quoted .backslash s)).flatMap (text "SKIP_BLOCK".toList)) := by
  have htokens : (Slot.ofText ['?']).flatMap
      ((context ⟨.builtin .mysql, {}⟩ nonce).tokens [.scalar (.text s)]) =
        quoted .backslash s := by
    rw [slots_question]
    exact List.append_nil _
  have hnul : char '\x00' ∉ (Slot.ofText ['?']).flatMap
      ((context ⟨.builtin .mysql, {}⟩ nonce).tokens [.scalar (.text s)]) := by
    rw [htokens]
    intro hmem
    obtain ⟨c, hc, heq⟩ := List.mem_map.1 hmem
    exact hs (Token.char.inj heq ▸ hc)
  refine (build_eq_ok_iff hnul).2 ⟨?_, ?_⟩
  · rw [slots_question]
    intro slot hslot
    rw [List.mem_singleton.1 hslot]
    exact ⟨_, rfl⟩
  · rw [htokens]

/-- A kept fragment, and a dropped one with a skip on either side of its string. Any brace of the
first string finds a partner; those of the second may also make more dropped fragments. -/
theorem build_text_eq_iff_fragments :
    let h : Handler := ⟨.builtin .mysql, {}⟩
    let template : Text := ['{', '?', '}', '{', '?', '?', '?', '}']
    let arguments : List Argument :=
      [.scalar (.text ['a']), .value .skip, .scalar (.text ['b']), .value .skip]
    (∃ pre post, ∀ s, '\x00' ∉ EscapeStyle.backslash.quote s →
      ∃ sql, h.build (.replicate 32 0) template (arguments.set 0 (.scalar (.text s))) = .ok sql ∧
        (sql = pre ++ EscapeStyle.backslash.quote s ++ post ↔ Braceless Brace.ofChar? s)) ∧
    ∃ rest, ∀ s, '\x00' ∉ EscapeStyle.backslash.quote s →
      ∃ sql, h.build (.replicate 32 0) template (arguments.set 2 (.scalar (.text s))) = .ok sql ∧
        (sql = rest ↔ Braceless Brace.ofChar? s ∨ Rejoins s) := by
  intro h template arguments
  have hslots : Slot.ofText template =
      [⟨.char '{', 0⟩, ⟨.marker .generic, 0⟩, ⟨.char '}', 1⟩, ⟨.char '{', 1⟩,
        ⟨.marker .generic, 1⟩, ⟨.marker .generic, 2⟩, ⟨.marker .generic, 3⟩, ⟨.char '}', 4⟩] := by
    decide
  have hargs : (h.context (.replicate 32 0)).Renders arguments template (∀ c ∈ ·, c ≠ '\x00') := by
    intro m i a hs ha hskip
    simp only [hslots, List.mem_cons, Slot.mk.injEq, reduceCtorEq, false_and, false_or,
      Piece.marker.injEq, List.not_mem_nil, or_false] at hs
    rcases hs with ⟨rfl, rfl⟩ | ⟨rfl, rfl⟩ | ⟨rfl, rfl⟩ | ⟨rfl, rfl⟩
    · obtain rfl := Option.some.inj ha
      exact ⟨['\'', 'a', '\''], rfl, by simp⟩
    · obtain rfl := Option.some.inj ha
      cases hskip
    · obtain rfl := Option.some.inj ha
      exact ⟨['\'', 'b', '\''], rfl, by simp⟩
    · obtain rfl := Option.some.inj ha
      cases hskip
  refine ⟨?_, ?_⟩
  · obtain ⟨left, right, before, after, hsplit, hbefore, hafter, hkept, -, hdropped⟩ :=
      build_text_eq_iff h .mysql rfl (.replicate 32 0) template arguments 0 (.scalar (.text ['a']))
        ['a'] (by decide) (by decide) rfl rfl ⟨_, rfl⟩ hargs
    obtain ⟨rfl, rfl⟩ := Slot.eq_of_split (x := [⟨.char '{', 0⟩]) hslots (by decide) (by decide)
      hsplit
    have hopen : EndsOpen brace? before := by rw [hbefore]; rfl
    have hclosed : StartsClosed brace? after := by rw [hafter]; rfl
    have hsegments : Slot.segments template =
        [.fragment [⟨.marker .generic, 0⟩],
          .fragment [⟨.marker .generic, 1⟩, ⟨.marker .generic, 2⟩, ⟨.marker .generic, 3⟩]] := by
      decide
    have houtside : ¬Slot.InDroppedFragment template arguments ⟨.marker .generic, 0⟩ := by
      rintro ⟨inner, hinner, hmem, hskip⟩
      rw [hsegments, List.mem_cons, List.mem_singleton] at hinner
      rcases hinner with hinner | hinner
      · obtain rfl := Segment.fragment.inj hinner
        exact absurd hskip (by decide)
      · obtain rfl := Segment.fragment.inj hinner
        exact absurd hmem (by decide)
    have hnot : ¬Dropped before after := by
      refine fun hd => houtside ((hdropped fun slot hslot hm => ?_).1 hd)
      simp only [List.cons_append, List.nil_append, List.mem_cons, List.not_mem_nil,
        or_false] at hslot
      rcases hslot with rfl | rfl | rfl | rfl | rfl | rfl | rfl
      any_goals cases hm
      all_goals exact braces_eq_nil_iff.1 rfl
    obtain ⟨pre, post, hpost⟩ := hkept hnot
    refine ⟨pre, post, fun s hs => ?_⟩
    obtain ⟨sql, hsql, hiff⟩ := hpost s hs
    refine ⟨sql, hsql, hiff.trans ?_⟩
    rw [unpaired_iff_braceless hopen hclosed, ← braces_eq_nil_iff, braces_ofText,
      braces_eq_nil_iff]
  · obtain ⟨left, right, before, after, hsplit, hbefore, hafter, -, hdropped, -⟩ :=
      build_text_eq_iff h .mysql rfl (.replicate 32 0) template arguments 2 (.scalar (.text ['b']))
        ['b'] (by decide) (by decide) rfl rfl ⟨_, rfl⟩ hargs
    obtain ⟨rfl, rfl⟩ := Slot.eq_of_split (x := [⟨.char '{', 0⟩, ⟨.marker .generic, 0⟩,
      ⟨.char '}', 1⟩, ⟨.char '{', 1⟩, ⟨.marker .generic, 1⟩]) hslots (by decide) (by decide) hsplit
    have henclosed : Enclosed before after [skip] [skip] := by
      rw [hbefore, hafter]
      exact ⟨ofText ['{', '\'', 'a', '\'', '}'], [], rfl, rfl, braces_eq_nil_iff.1 rfl,
        braces_eq_nil_iff.1 rfl⟩
    obtain ⟨rest, hrest⟩ := hdropped _ _ henclosed rfl
    refine ⟨rest, fun s hs => ?_⟩
    obtain ⟨sql, hsql, hiff⟩ := hrest s hs
    exact ⟨sql, hsql, hiff.trans (by simp [isSkip])⟩

/-- A fragment made of data alone: the string with an empty fragment gives the query of the empty
string. -/
theorem build_text_braces :
    ¬Slot.InDroppedFragment ['?'] [.scalar (.text [])] ⟨.marker .generic, 0⟩ ∧
      ¬∃ pre post, ∀ s, '\x00' ∉ s →
        (⟨.builtin .mysql, {}⟩ : Handler).build (.replicate 32 0) ['?'] [.scalar (.text s)] =
          .ok (pre ++ EscapeStyle.backslash.quote s ++ post) := by
  refine ⟨?_, ?_⟩
  · rintro ⟨inner, hinner, -⟩
    have hsegments : Slot.segments ['?'] = [.plain ⟨.marker .generic, 0⟩] := by decide
    rw [hsegments] at hinner
    simp at hinner
  · rintro ⟨pre, post, h⟩
    have hempty := h [] (by decide)
    have hbraces := h ['{', '}'] (by decide)
    rw [build_question _ (by decide)] at hempty hbraces
    have hsame : collapse (quoted .backslash ['{', '}']) = collapse (quoted .backslash []) := by
      decide
    have hshort := congrArg List.length (Except.ok.inj hempty)
    have hlong := congrArg List.length (Except.ok.inj hbraces)
    rw [hsame, hshort] at hlong
    simp [EscapeStyle.quote, EscapeStyle.escape, EscapeStyle.char, EscapeStyle.backslashed] at hlong

end Handler

end QueryTemplate
