import QueryTemplate.Proofs.Escaping
import QueryTemplate.Proofs.Token

/-!
# Data between tokens

What the second pass does to characters that stand between other tokens. Outside all fragments, and
inside a fragment without a skip, they are kept as they are exactly if no brace of theirs finds a
partner (`collapse_between_eq_iff`, `collapse_enclosed_eq_iff`). Inside a fragment with a skip they
go with it if they have no brace, or if their braces only cut it into fragments that vanish as well
(`collapse_dropped_eq_nil_iff`).

Where a brace of the data does find a partner, the result is told apart by its length: every
fragment that closes costs two characters.
-/

namespace QueryTemplate

namespace Token

open Segment

variable {xs ys a b x y : List Token} {o c : Token}

theorem brace?_opening : brace? (char '{') = some .opening := rfl

theorem brace?_closing : brace? (char '}') = some .closing := rfl

/-! ## Cuts -/

theorem collapse_append (h : ¬(EndsOpen brace? xs ∧ StartsClosed brace? ys)) :
    collapse (xs ++ ys) = collapse xs ++ collapse ys := by
  rw [collapse, ofList_append h, List.flatMap_append]
  rfl

theorem collapse_crossing (ho : brace? o = some .opening) (ha : Braceless brace? a)
    (hb : Braceless brace? b) (hc : brace? c = some .closing) :
    collapse ((x ++ o :: a) ++ (b ++ c :: y)) =
      collapse x ++ survivors isSkip (.fragment (a ++ b)) ++ collapse y := by
  rw [collapse, ofList_append_of_crossing ho ha hb hc, List.flatMap_append, List.flatMap_cons,
    ← List.append_assoc]
  rfl

theorem collapse_braceless (h : Braceless brace? xs) : collapse xs = xs := by
  rw [collapse, ofList_braceless h, List.flatMap_map]
  exact List.flatMap_singleton' xs

theorem collapse_cons_opening (ho : brace? o = some .opening) (h : ¬StartsClosed brace? xs) :
    collapse (o :: xs) = o :: collapse xs := by
  rw [collapse, ofList_unpaired ho h, List.flatMap_cons]
  rfl

theorem collapse_concat_closing (hc : brace? c = some .closing) (h : ¬EndsOpen brace? xs) :
    collapse (xs ++ [c]) = collapse xs ++ [c] := by
  have hne : brace? c ≠ some .opening := by simp [hc]
  rw [collapse_append fun h' => h h'.1]
  congr 1
  rw [collapse, ofList_cons_of_ne_opening hne]
  rfl

theorem collapse_open_end (ho : brace? o = some .opening) (ha : Braceless brace? a) :
    collapse (x ++ o :: a) = collapse x ++ o :: a := by
  rw [collapse_append fun h => not_startsClosed_cons ho a h.2,
    collapse_cons_opening ho ha.not_startsClosed, collapse_braceless ha]

theorem collapse_closed_start (hb : Braceless brace? b) (hc : brace? c = some .closing) :
    collapse (b ++ c :: y) = b ++ c :: collapse y := by
  have hne : brace? c ≠ some .opening := by simp [hc]
  have hplain : (b.map plain).flatMap (survivors isSkip) = b := by
    rw [List.flatMap_map]
    exact List.flatMap_singleton' b
  rw [collapse, ofList_braceless_append hb, ofList_cons_of_ne_opening hne, List.flatMap_append,
    List.flatMap_cons, hplain]
  rfl

/-! ## Lengths -/

variable (literal : Text)

def weight (literal : Text) (ts : List Token) : Nat := (ts.flatMap (text literal)).length

theorem weight_append (xs ys : List Token) :
    weight literal (xs ++ ys) = weight literal xs + weight literal ys := by
  rw [weight, List.flatMap_append, List.length_append]
  rfl

theorem weight_char_cons (d : Char) (ts : List Token) :
    weight literal (.char d :: ts) = weight literal ts + 1 := by
  simp [weight, text, Nat.add_comm]

theorem weight_brace_cons {t : Token} {k : Brace} (h : brace? t = some k) (ts : List Token) :
    weight literal (t :: ts) = weight literal ts + 1 := by
  cases t with
  | char d => exact weight_char_cons literal d ts
  | skip => simp [brace?] at h

theorem weight_survivors_le (inner : List Token) :
    weight literal (survivors isSkip (.fragment inner)) ≤ weight literal inner := by
  rw [survivors]
  split
  · exact Nat.zero_le _
  · exact Nat.le_refl _

/-- A fragment across a cut costs its two braces. -/
theorem weight_collapse_crossing (hx : EndsOpen brace? xs) (hy : StartsClosed brace? ys) :
    weight literal (collapse (xs ++ ys)) + 2 ≤
      weight literal (collapse xs) + weight literal (collapse ys) := by
  obtain ⟨x, o, a, rfl, ho, ha⟩ := exists_of_endsOpen hx
  obtain ⟨b, c, y, rfl, hb, hc⟩ := exists_of_startsClosed hy
  have hle := weight_survivors_le literal (a ++ b)
  rw [collapse_crossing ho ha hb hc, collapse_open_end ho ha, collapse_closed_start hb hc]
  simp only [weight_append, weight_brace_cons literal ho, weight_brace_cons literal hc] at hle ⊢
  omega

theorem weight_collapse_append_le (xs ys : List Token) :
    weight literal (collapse (xs ++ ys)) ≤
      weight literal (collapse xs) + weight literal (collapse ys) := by
  by_cases h : EndsOpen brace? xs ∧ StartsClosed brace? ys
  · have hlt := weight_collapse_crossing literal h.1 h.2
    omega
  · have heq := congrArg (weight literal) (collapse_append h)
    rw [weight_append] at heq
    exact Nat.le_of_eq heq

theorem weight_collapse_le (xs : List Token) :
    weight literal (collapse xs) ≤ weight literal xs := by
  induction xs with
  | nil => exact Nat.le_refl _
  | cons t xs ih =>
    have hcut := weight_collapse_append_le literal [t] xs
    have hone : collapse [t] = [t] := by
      rw [collapse, ofList, List.foldr_cons, List.foldr_nil, push]
      split <;> rfl
    have hsplit : weight literal (t :: xs) = weight literal [t] + weight literal xs :=
      weight_append literal [t] xs
    rw [hone, List.singleton_append] at hcut
    omega

/-! ## Braces without a partner -/

/-- No brace of `data` has its partner in `before`, in `data` itself or in `after`. -/
structure Unpaired (before data after : List Token) : Prop where
  outer_left : ¬(EndsOpen brace? before ∧ StartsClosed brace? data)
  inner : ¬[Brace.opening, .closing] <:+: braces brace? data
  outer_right : ¬(EndsOpen brace? data ∧ StartsClosed brace? after)

variable {before data after : List Token}

theorem collapse_of_no_pair (h : ¬[Brace.opening, .closing] <:+: braces brace? xs) :
    collapse xs = xs := by
  induction xs with
  | nil => rfl
  | cons t xs ih =>
    have hxs : ¬[Brace.opening, .closing] <:+: braces brace? xs := by
      intro h'
      refine h (h'.trans ?_)
      cases ht : brace? t with
      | none => exact braces_cons_none ht xs ▸ List.infix_refl _
      | some k =>
        rw [braces_cons_some ht]
        exact (List.suffix_cons k _).isInfix
    by_cases ht : brace? t = some .opening
    · have hclosed : ¬StartsClosed brace? xs := by
        intro hclosed
        obtain ⟨rest, hrest⟩ := List.head?_eq_some_iff.1 hclosed
        refine h ⟨[], rest, ?_⟩
        rw [braces_cons_some ht, hrest]
        rfl
      rw [collapse_cons_opening ht hclosed, ih hxs]
    · rw [collapse, ofList_cons_of_ne_opening ht, List.flatMap_cons, ← collapse, ih hxs]
      rfl

theorem exists_cut_of_not_unpaired (h : ¬Unpaired before data after) :
    ∃ d e, data = d ++ e ∧ EndsOpen brace? (before ++ d) ∧ StartsClosed brace? (e ++ after) := by
  by_cases hleft : EndsOpen brace? before ∧ StartsClosed brace? data
  · refine ⟨[], data, rfl, ?_, startsClosed_append_iff.2 (.inl hleft.2)⟩
    rw [List.append_nil]
    exact hleft.1
  · by_cases hright : EndsOpen brace? data ∧ StartsClosed brace? after
    · refine ⟨data, [], by simp, endsOpen_append_iff.2 (.inl hright.1), ?_⟩
      rw [List.nil_append]
      exact hright.2
    · have hinner : [Brace.opening, .closing] <:+: braces brace? data := by
        by_contra hinner
        exact h ⟨hleft, hinner, hright⟩
      obtain ⟨u, v, huv⟩ := hinner
      have hcut : braces brace? data = (u ++ [.opening]) ++ (.closing :: v) := by simp [← huv]
      obtain ⟨d, e, rfl, hd, he⟩ := List.filterMap_eq_append_iff.1 hcut
      refine ⟨d, e, rfl, endsOpen_append_iff.2 (.inl ?_), startsClosed_append_iff.2 (.inl ?_)⟩
      · rw [EndsOpen, braces, hd, List.getLast?_concat]
      · rw [StartsClosed, braces, he, List.head?_cons]

theorem collapse_unpaired (h : Unpaired before data after)
    (houtside : ¬(EndsOpen brace? before ∧ StartsClosed brace? after)) :
    collapse (before ++ data ++ after) = collapse before ++ data ++ collapse after := by
  have hright : ¬(EndsOpen brace? (before ++ data) ∧ StartsClosed brace? after) := by
    rintro ⟨hopen, hclosed⟩
    rcases endsOpen_append_iff.1 hopen with hdata | ⟨-, hbefore⟩
    · exact h.outer_right ⟨hdata, hclosed⟩
    · exact houtside ⟨hbefore, hclosed⟩
  rw [collapse_append hright, collapse_append h.outer_left, collapse_of_no_pair h.inner]

/-- Outside all fragments, data is kept as it is exactly if it is unpaired. -/
theorem collapse_between_eq_iff
    (houtside : ¬(EndsOpen brace? before ∧ StartsClosed brace? after)) :
    (collapse (before ++ data ++ after)).flatMap (text literal) =
        (collapse before).flatMap (text literal) ++ data.flatMap (text literal) ++
          (collapse after).flatMap (text literal) ↔
      Unpaired before data after := by
  constructor
  · intro heq
    by_contra hpaired
    obtain ⟨d, e, rfl, hopen, hclosed⟩ := exists_cut_of_not_unpaired hpaired
    have hcut : before ++ (d ++ e) ++ after = (before ++ d) ++ (e ++ after) := by simp
    -- the pair across the cut costs two characters that nothing makes up for
    have hlength : weight literal (collapse (before ++ (d ++ e) ++ after)) =
        weight literal (collapse before) + (weight literal d + weight literal e) +
          weight literal (collapse after) := by
      rw [← weight_append, weight, heq, List.length_append, List.length_append]
      rfl
    have hcost := weight_collapse_crossing literal hopen hclosed
    have hleft := weight_collapse_append_le literal before d
    have hright := weight_collapse_append_le literal e after
    have hd := weight_collapse_le literal d
    have he := weight_collapse_le literal e
    rw [hcut] at hlength
    omega
  · intro h
    rw [collapse_unpaired h houtside, List.flatMap_append, List.flatMap_append]

/-! ## String literals as tokens -/

theorem braces_ofText (t : Text) : braces brace? (ofText t) = braces Brace.ofChar? t := by
  rw [braces, ofText, List.filterMap_map]
  rfl

/-! ## Inside a fragment -/

theorem collapse_delimited (x m y : List Token) :
    collapse (x ++ .char '{' :: (m ++ .char '}' :: y)) =
      collapse x ++ collapse (.char '{' :: (m ++ [.char '}'])) ++ collapse y := by
  have hopen : ¬StartsClosed brace? (.char '{' :: (m ++ .char '}' :: y)) :=
    not_startsClosed_cons brace?_opening _
  have hclose : ¬EndsOpen brace? (.char '{' :: (m ++ [.char '}'])) :=
    not_endsOpen_concat brace?_closing (.char '{' :: m)
  have hcut : .char '{' :: (m ++ .char '}' :: y) = (.char '{' :: (m ++ [.char '}'])) ++ y := by simp
  rw [collapse_append fun h => hopen h.2, hcut, collapse_append fun h => hclose h.1,
    List.append_assoc]

theorem collapse_single {m : List Token} (hm : Braceless brace? m) :
    collapse (.char '{' :: (m ++ [.char '}'])) = survivors isSkip (.fragment m) := by
  have hpair := ofList_pair brace?_opening hm brace?_closing []
  rw [collapse, hpair, ofList_nil, List.flatMap_cons, List.flatMap_nil, List.append_nil]

theorem head_collapse_of_not_startsClosed {m : List Token} (h : ¬StartsClosed brace? m)
    (hm : ¬Braceless brace? m) :
    (collapse (.char '{' :: (m ++ [.char '}']))).head? = some (.char '{') := by
  have hopen : ¬StartsClosed brace? (m ++ [.char '}']) := by
    rw [startsClosed_append_iff]
    rintro (h' | ⟨h', -⟩)
    · exact h h'
    · exact hm h'
  rw [collapse_cons_opening brace?_opening hopen]
  rfl

theorem last_collapse_of_not_endsOpen {m : List Token} (h : ¬EndsOpen brace? m)
    (hm : ¬Braceless brace? m) :
    (collapse (.char '{' :: (m ++ [.char '}']))).getLast? = some (.char '}') := by
  have hclosed : ¬EndsOpen brace? (.char '{' :: m) := by
    intro h'
    rw [← List.singleton_append, endsOpen_append_iff] at h'
    rcases h' with h' | ⟨h', -⟩
    · exact h h'
    · exact hm h'
  rw [← List.cons_append, collapse_concat_closing brace?_closing hclosed, List.getLast?_concat]

theorem weight_collapse_delimited_lt {m : List Token} (hclosed : StartsClosed brace? m)
    (hopen : EndsOpen brace? m) :
    weight literal (collapse (.char '{' :: (m ++ [.char '}']))) < weight literal m := by
  have hnone : Braceless brace? ([] : List Token) := fun _ h => absurd h List.not_mem_nil
  have hleft : EndsOpen brace? [.char '{'] := endsOpen_of_pair (x := []) brace?_opening hnone
  have hright : StartsClosed brace? [.char '}'] := startsClosed_of_pair hnone brace?_closing
  have hm : StartsClosed brace? (m ++ [.char '}']) := startsClosed_append_iff.2 (.inl hclosed)
  have houter := weight_collapse_crossing literal hleft hm
  have hinner := weight_collapse_crossing literal hopen hright
  have hopening : weight literal (collapse [.char '{']) ≤ 1 := weight_collapse_le literal _
  have hclosing : weight literal (collapse [.char '}']) ≤ 1 := weight_collapse_le literal _
  have hself := weight_collapse_le literal m
  rw [List.singleton_append] at houter
  omega

/-- Between two braces, a sequence without a skip that neither begins nor ends with a brace is kept
as it is exactly if it has no brace. -/
theorem collapse_kept_eq_iff {m : List Token} {first last : Char} {front rest : List Token}
    (hskip : m.any isSkip = false) (hfirst : m = .char first :: rest)
    (hlast : m = front ++ [.char last]) (hfirst' : first ≠ '{') (hlast' : last ≠ '}') :
    (collapse (.char '{' :: (m ++ [.char '}']))).flatMap (text literal) =
        m.flatMap (text literal) ↔
      Braceless brace? m := by
  constructor
  · intro heq
    by_contra hm
    by_cases hclosed : StartsClosed brace? m
    · by_cases hopen : EndsOpen brace? m
      · have hshorter := weight_collapse_delimited_lt literal hclosed hopen
        unfold weight at hshorter
        rw [heq] at hshorter
        exact Nat.lt_irrefl _ hshorter
      · obtain ⟨ts, hts⟩ := List.getLast?_eq_some_iff.1 (last_collapse_of_not_endsOpen hopen hm)
        rw [hts, hlast, List.flatMap_append, List.flatMap_append] at heq
        have hchar : '}' = last := by simpa [text] using congrArg List.getLast? heq
        exact hlast' hchar.symm
    · obtain ⟨ts, hts⟩ := List.head?_eq_some_iff.1 (head_collapse_of_not_startsClosed hclosed hm)
      rw [hts, hfirst, List.flatMap_cons, List.flatMap_cons] at heq
      have hchar : '{' = first := by simpa [text] using congrArg List.head? heq
      exact hfirst' hchar.symm
  · intro hm
    rw [collapse_single hm, survivors, hskip]
    rfl

/-! ## String literals inside a fragment -/

variable (style : EscapeStyle) (s : Text)

def quoted : List Token := ofText (style.quote s)

theorem braces_quoted : braces brace? (quoted style s) = braces Brace.ofChar? s := by
  rw [quoted, braces_ofText, style.braces_quote]

theorem quoted_eq :
    quoted style s = .char '\'' :: (ofText (style.escape s) ++ [.char '\'']) := by
  simp [quoted, EscapeStyle.quote, ofText]

theorem braceless_quoted : Braceless brace? (quoted style s) ↔ Braceless Brace.ofChar? s := by
  rw [← braces_eq_nil_iff, ← braces_eq_nil_iff, braces_quoted]

theorem braces_between (ha : Braceless brace? a) (hb : Braceless brace? b) :
    braces brace? (a ++ quoted style s ++ b) = braces Brace.ofChar? s := by
  rw [braces_append, braces_append, braces_eq_nil_iff.2 ha, braces_eq_nil_iff.2 hb,
    braces_quoted, List.nil_append, List.append_nil]

theorem braceless_between (ha : Braceless brace? a) (hb : Braceless brace? b) :
    Braceless brace? (a ++ quoted style s ++ b) ↔ Braceless Brace.ofChar? s := by
  rw [← braces_eq_nil_iff, ← braces_eq_nil_iff, braces_between style s ha hb]

theorem exists_first_around (ha : Braceless brace? a) (hskip : a.any isSkip = false) :
    ∃ first rest, a ++ quoted style s ++ b = .char first :: rest ∧ first ≠ '{' := by
  cases a with
  | nil =>
    refine ⟨'\'', ofText (style.escape s) ++ [.char '\''] ++ b, ?_, by decide⟩
    rw [List.nil_append, quoted_eq]
    rfl
  | cons t a =>
    cases t with
    | char c =>
      refine ⟨c, a ++ quoted style s ++ b, rfl, ?_⟩
      rintro rfl
      exact absurd (ha _ List.mem_cons_self) (by decide)
    | skip => simp [isSkip] at hskip

theorem exists_last_around (hb : Braceless brace? b) (hskip : b.any isSkip = false) :
    ∃ front last, a ++ quoted style s ++ b = front ++ [.char last] ∧ last ≠ '}' := by
  rcases List.eq_nil_or_concat b with rfl | ⟨b, t, rfl⟩
  · refine ⟨a ++ .char '\'' :: ofText (style.escape s), '\'', ?_, by decide⟩
    simp [quoted_eq]
  · cases t with
    | char c =>
      refine ⟨a ++ quoted style s ++ b, c, by simp, ?_⟩
      rintro rfl
      have hlast : brace? (.char '}') = none := hb _ (by simp)
      exact absurd hlast (by decide)
    | skip => simp [isSkip] at hskip

/-- In a fragment without a skip, a string literal is kept as it is exactly if it has no brace. -/
theorem collapse_enclosed_eq_iff (ha : Braceless brace? a) (hb : Braceless brace? b)
    (hskip : (a ++ b).any isSkip = false) :
    (collapse (x ++ .char '{' :: (a ++ quoted style s ++ b ++ .char '}' :: y))).flatMap
          (text literal) =
        (collapse x ++ a).flatMap (text literal) ++ style.quote s ++
          (b ++ collapse y).flatMap (text literal) ↔
      Braceless Brace.ofChar? s := by
  rw [List.any_append, Bool.or_eq_false_iff] at hskip
  have hm : (a ++ quoted style s ++ b).any isSkip = false := by
    rw [List.any_append, List.any_append, hskip.1, hskip.2, quoted, any_isSkip_ofText]
    rfl
  obtain ⟨first, rest, hfirst, hfirst'⟩ := exists_first_around (b := b) style s ha hskip.1
  obtain ⟨front, last, hlast, hlast'⟩ := exists_last_around (a := a) style s hb hskip.2
  have hquoted : (quoted style s).flatMap (text literal) = style.quote s :=
    flatMap_text_ofText literal _
  have hright : (collapse x ++ a).flatMap (text literal) ++ style.quote s ++
      (b ++ collapse y).flatMap (text literal) =
        (collapse x).flatMap (text literal) ++
          (a ++ quoted style s ++ b).flatMap (text literal) ++
            (collapse y).flatMap (text literal) := by
    simp [hquoted]
  rw [← braceless_between style s ha hb,
    ← collapse_kept_eq_iff literal hm hfirst hlast hfirst' hlast', collapse_delimited, hright,
    List.flatMap_append, List.flatMap_append, List.append_cancel_right_eq,
    List.append_cancel_left_eq]

/-! ## String literals in a dropped fragment -/

/-- The braces of a string cut a fragment around it into a first and a last one, with nothing but
empty fragments in between. -/
def Rejoins (s : Text) : Prop :=
  ∃ s₁ m s₂, s = s₁ ++ '}' :: (m ++ '{' :: s₂) ∧ Braceless Brace.ofChar? s₁ ∧
    Braceless Brace.ofChar? s₂ ∧ ∀ segment ∈ ofList Brace.ofChar? m, segment = .fragment []

theorem ofText_escape (s : Text) :
    ofText (style.escape s) = s.flatMap fun c => ofText (style.char c) := by
  simp [ofText, EscapeStyle.escape, List.map_flatMap]

theorem faithful_ofText_char (c : Char) :
    Faithful Brace.ofChar? brace? (fun c => ofText (style.char c)) c := by
  have hchar := style.faithful_char c
  unfold Faithful at hchar ⊢
  cases hc : Brace.ofChar? c with
  | none =>
    rw [hc] at hchar
    simp only at hchar ⊢
    rwa [← braces_eq_nil_iff, braces_ofText, braces_eq_nil_iff]
  | some k =>
    rw [hc] at hchar
    obtain ⟨d, hd, hk⟩ := hchar
    refine ⟨.char d, ?_, hk⟩
    simp only [hd]
    rfl

theorem braceless_ofText_escape :
    Braceless brace? (ofText (style.escape s)) ↔ Braceless Brace.ofChar? s := by
  rw [← braces_eq_nil_iff, ← braces_eq_nil_iff, ofText_escape,
    braces_flatMap fun c _ => faithful_ofText_char style c]

theorem collapse_escape_eq_nil_iff :
    collapse (ofText (style.escape s)) = [] ↔
      ∀ segment ∈ ofList Brace.ofChar? s, segment = .fragment [] := by
  have hne : ∀ c, ofText (style.char c) ≠ [] :=
    fun c hc => style.char_ne_nil c (List.map_eq_nil_iff.1 hc)
  have hcollapse : collapse (ofText (style.escape s)) =
      ((ofList Brace.ofChar? s).flatMap (survivors fun _ => false)).flatMap
        fun c => ofText (style.char c) := by
    rw [collapse, ofText_escape, ofList_flatMap fun c _ => faithful_ofText_char style c,
      List.flatMap_assoc, List.flatMap_assoc]
    apply List.flatMap_congr
    intro segment _
    apply survivors_expand
    intro c _
    exact any_isSkip_ofText _
  rw [hcollapse, List.flatMap_eq_nil_iff]
  constructor
  · intro h segment hsegment
    cases segment with
    | plain c => exact absurd (h c (List.mem_flatMap.2 ⟨_, hsegment, by simp [survivors]⟩)) (hne c)
    | fragment inner =>
      cases inner with
      | nil => rfl
      | cons c inner =>
        exact absurd (h c (List.mem_flatMap.2 ⟨_, hsegment, by simp [survivors]⟩)) (hne c)
  · intro h c hc
    obtain ⟨segment, hsegment, hc⟩ := List.mem_flatMap.1 hc
    rw [h segment hsegment] at hc
    simp [survivors] at hc

theorem collapse_two_fragments {p m q : List Token} (hp : Braceless brace? p)
    (hq : Braceless brace? q) :
    collapse (.char '{' :: (p ++ .char '}' :: (m ++ .char '{' :: (q ++ [.char '}'])))) =
      survivors isSkip (.fragment p) ++ collapse m ++ survivors isSkip (.fragment q) := by
  have hfirst := ofList_pair brace?_opening hp brace?_closing (m ++ .char '{' :: (q ++ [.char '}']))
  have hlast := collapse_delimited m q []
  have hnil : collapse [] = [] := rfl
  rw [collapse_single hq, hnil, List.append_nil] at hlast
  rw [collapse, hfirst, List.flatMap_cons, ← collapse, hlast, List.append_assoc]

theorem survivors_eq_nil_iff {p : List Token} (hp : p ≠ []) :
    survivors isSkip (.fragment p) = [] ↔ p.any isSkip := by
  rw [survivors]
  split
  · simp [*]
  · simp [*]

theorem collapse_rejoined_eq_nil_iff (ha : Braceless brace? a) (hb : Braceless brace? b)
    {s₁ m s₂ : Text} (h₁ : Braceless Brace.ofChar? s₁) (h₂ : Braceless Brace.ofChar? s₂) :
    collapse (.char '{' ::
        (a ++ quoted style (s₁ ++ '}' :: (m ++ '{' :: s₂)) ++ b ++ [.char '}'])) = [] ↔
      a.any isSkip ∧ b.any isSkip ∧
        ∀ segment ∈ ofList Brace.ofChar? m, segment = .fragment [] := by
  have hnone : brace? (.char '\'') = none := rfl
  have hp : Braceless brace? (a ++ .char '\'' :: ofText (style.escape s₁)) :=
    ha.append (List.forall_mem_cons.2 ⟨hnone, (braceless_ofText_escape style s₁).2 h₁⟩)
  have hq : Braceless brace? (ofText (style.escape s₂) ++ .char '\'' :: b) :=
    ((braceless_ofText_escape style s₂).2 h₂).append (List.forall_mem_cons.2 ⟨hnone, hb⟩)
  have hcut : .char '{' :: (a ++ quoted style (s₁ ++ '}' :: (m ++ '{' :: s₂)) ++ b ++ [.char '}']) =
      .char '{' :: ((a ++ .char '\'' :: ofText (style.escape s₁)) ++ .char '}' ::
        (ofText (style.escape m) ++ .char '{' ::
          ((ofText (style.escape s₂) ++ .char '\'' :: b) ++ [.char '}']))) := by
    have hopen : style.char '{' = ['{'] := by cases style <;> rfl
    have hclose : style.char '}' = ['}'] := by cases style <;> rfl
    simp [quoted_eq, EscapeStyle.escape, hopen, hclose, ofText]
  rw [hcut, collapse_two_fragments hp hq, List.append_eq_nil_iff, List.append_eq_nil_iff,
    survivors_eq_nil_iff (by simp), survivors_eq_nil_iff (by simp), collapse_escape_eq_nil_iff]
  simp only [List.any_append, List.any_cons, isSkip, any_isSkip_ofText, Bool.or_false,
    Bool.false_or]
  tauto

theorem exists_rejoined {s : Text} (hclosed : StartsClosed Brace.ofChar? s)
    (hopen : EndsOpen Brace.ofChar? s) :
    ∃ s₁ m s₂, s = s₁ ++ '}' :: (m ++ '{' :: s₂) ∧ Braceless Brace.ofChar? s₁ ∧
      Braceless Brace.ofChar? s₂ := by
  obtain ⟨s₁, c, r, rfl, h₁, hc⟩ := exists_of_startsClosed hclosed
  have hr : EndsOpen Brace.ofChar? r := by
    rw [← List.singleton_append, ← List.append_assoc, endsOpen_append_iff] at hopen
    rcases hopen with hr | ⟨-, hend⟩
    · exact hr
    · exact absurd hend (not_endsOpen_concat hc s₁)
  obtain ⟨m, o, s₂, rfl, ho, h₂⟩ := exists_of_endsOpen hr
  obtain rfl := Brace.ofChar?_eq_closing.1 hc
  obtain rfl := Brace.ofChar?_eq_opening.1 ho
  exact ⟨s₁, m, s₂, rfl, h₁, h₂⟩

theorem startsClosed_and_endsOpen_of_vanishes {m : List Token} (hm : ¬Braceless brace? m)
    (h : collapse (.char '{' :: (m ++ [.char '}'])) = []) :
    StartsClosed brace? m ∧ EndsOpen brace? m := by
  constructor
  · by_contra hclosed
    have hhead := head_collapse_of_not_startsClosed hclosed hm
    rw [h] at hhead
    simp at hhead
  · by_contra hopen
    have hlast := last_collapse_of_not_endsOpen hopen hm
    rw [h] at hlast
    simp at hlast

/-- In a fragment with a skip, a string literal goes with it exactly if it has no brace, or if its
braces leave a skip in the first and in the last fragment that they make. -/
theorem collapse_dropped_eq_nil_iff (ha : Braceless brace? a) (hb : Braceless brace? b)
    (hskip : (a ++ b).any isSkip) :
    collapse (.char '{' :: (a ++ quoted style s ++ b ++ [.char '}'])) = [] ↔
      Braceless Brace.ofChar? s ∨ a.any isSkip ∧ b.any isSkip ∧ Rejoins s := by
  by_cases hs : Braceless Brace.ofChar? s
  · rw [collapse_single ((braceless_between style s ha hb).2 hs), survivors, if_pos]
    · simp [hs]
    · rw [List.any_append, List.any_append, quoted, any_isSkip_ofText, Bool.or_false,
        ← List.any_append]
      exact hskip
  · rw [or_iff_right hs]
    have hm : ¬Braceless brace? (a ++ quoted style s ++ b) :=
      fun h => hs ((braceless_between style s ha hb).1 h)
    have hbraces := braces_between style s ha hb
    constructor
    · intro h
      obtain ⟨hclosed, hopen⟩ := startsClosed_and_endsOpen_of_vanishes hm h
      rw [StartsClosed, hbraces] at hclosed
      rw [EndsOpen, hbraces] at hopen
      obtain ⟨s₁, m, s₂, rfl, h₁, h₂⟩ := exists_rejoined hclosed hopen
      obtain ⟨hskipa, hskipb, hvanish⟩ := (collapse_rejoined_eq_nil_iff style ha hb h₁ h₂).1 h
      exact ⟨hskipa, hskipb, s₁, m, s₂, rfl, h₁, h₂, hvanish⟩
    · rintro ⟨hskipa, hskipb, s₁, m, s₂, rfl, h₁, h₂, hvanish⟩
      exact (collapse_rejoined_eq_nil_iff style ha hb h₁ h₂).2 ⟨hskipa, hskipb, hvanish⟩

end Token

end QueryTemplate
