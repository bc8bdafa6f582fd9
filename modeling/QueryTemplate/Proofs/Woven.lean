import QueryTemplate.Proofs.Literal
import QueryTemplate.Proofs.NumberText
import QueryTemplate.Proofs.Slot

/-!
# Texts woven from literals

What the first pass writes is woven from string literals and from text without NUL: the template,
numbers, commas. So a pattern with a NUL and without a quote can occur only inside one literal
(`Woven.infix_iff`).
-/

namespace QueryTemplate

/-- A text made of characters other than NUL and of the literals of some strings, in order. -/
inductive Woven (style : EscapeStyle) : List Text → Text → Prop
  | nil : Woven style [] []
  | char {c : Char} {strings : List Text} {t : Text} (hc : c ≠ '\x00')
      (h : Woven style strings t) : Woven style strings (c :: t)
  | literal {strings : List Text} {t : Text} (s : Text) (h : Woven style strings t) :
      Woven style (s :: strings) (style.quote s ++ t)

namespace Woven

variable {style : EscapeStyle} {strings strings' : List Text} {t t' : Text}

theorem of_not_mem (h : '\x00' ∉ t) : Woven style [] t := by
  induction t with
  | nil => exact .nil
  | cons c t ih =>
    rw [List.mem_cons, not_or] at h
    exact .char (Ne.symm h.1) (ih h.2)

theorem quote (s : Text) : Woven style [s] (style.quote s) := by
  have h : Woven style [s] (style.quote s ++ []) := .literal s .nil
  rwa [List.append_nil] at h

theorem append (h : Woven style strings t) (h' : Woven style strings' t') :
    Woven style (strings ++ strings') (t ++ t') := by
  induction h with
  | nil => exact h'
  | char hc _ ih => exact .char hc ih
  | literal s _ ih =>
    rw [List.append_assoc]
    exact .literal s ih

variable {α : Type} {f : α → List Text} {g : α → Text} {xs : List α}

theorem flatMap (h : ∀ x ∈ xs, Woven style (f x) (g x)) :
    Woven style (xs.flatMap f) (xs.flatMap g) := by
  induction xs with
  | nil => exact .nil
  | cons x xs ih =>
    have hx := h x List.mem_cons_self
    have hxs := ih fun y hy => h y (List.mem_cons_of_mem _ hy)
    exact hx.append hxs

theorem commaSeparated (h : ∀ x ∈ xs, Woven style (f x) (g x)) :
    Woven style (xs.flatMap f) (Text.commaSeparated (xs.map g)) := by
  induction xs with
  | nil => exact .nil
  | cons x xs ih =>
    have hx := h x List.mem_cons_self
    have hxs := ih fun y hy => h y (List.mem_cons_of_mem _ hy)
    cases xs with
    | nil => simpa [Text.commaSeparated_singleton] using hx
    | cons y ys =>
      have hseparator : Woven style [] [',', ' '] := of_not_mem (by decide)
      rw [List.map_cons, List.map_cons, Text.commaSeparated_cons_cons, List.flatMap_cons]
      exact hx.append (hseparator.append hxs)

end Woven

/-! ## Patterns between quotes -/

section Patterns

theorem infix_append_cons_iff {m xs ys : Text} {c : Char} (hc : c ∉ m) :
    m <:+: xs ++ c :: ys ↔ m <:+: xs ∨ m <:+: ys := by
  constructor
  · rintro ⟨u, v, huv⟩
    rw [List.append_assoc] at huv
    rcases List.append_eq_append_iff.1 huv with ⟨w, hxs, hw⟩ | ⟨w, hu, hw⟩
    · rcases List.append_eq_append_iff.1 hw with ⟨w', hw', -⟩ | ⟨w', hm, hw'⟩
      · exact .inl ⟨u, w', by rw [hxs, hw', List.append_assoc]⟩
      · cases w' with
        | nil =>
          rw [List.append_nil] at hm
          exact .inl ⟨u, [], by rw [hxs, hm, List.append_nil]⟩
        | cons d w' =>
          have hd : c = d := (List.cons.inj hw').1
          exact absurd (by simp [hm, hd]) hc
    · cases w with
      | nil =>
        cases m with
        | nil => exact .inl (List.nil_infix)
        | cons d m =>
          have hd : c = d := (List.cons.inj hw).1
          exact absurd (by simp [hd]) hc
      | cons d w =>
        have hys : ys = w ++ (m ++ v) := (List.cons.inj hw).2
        exact .inr ⟨w, v, by rw [hys, List.append_assoc]⟩
  · rintro (h | h)
    · exact h.trans (List.prefix_append xs _).isInfix
    · exact h.trans ((List.suffix_cons c ys).trans (List.suffix_append xs _)).isInfix

variable {style : EscapeStyle} {strings : List Text} {m t : Text}

theorem infix_append_escape_iff (hm : '\'' ∉ m) (w s : Text) :
    m <:+: w ++ EscapeStyle.doubledQuote.escape s ↔ m <:+: w ++ s := by
  induction s generalizing w with
  | nil => exact Iff.rfl
  | cons c s ih =>
    have hcons : EscapeStyle.doubledQuote.escape (c :: s) =
        EscapeStyle.doubledQuote.char c ++ EscapeStyle.doubledQuote.escape s := rfl
    by_cases hc : c = '\''
    · have hdoubled : EscapeStyle.doubledQuote.escape (c :: s) =
          '\'' :: ([] ++ '\'' :: EscapeStyle.doubledQuote.escape s) := by rw [hcons, hc]; rfl
      have hnil : m <:+: [] → m <:+: w := fun h => h.trans List.nil_infix
      have hs := ih []
      rw [List.nil_append, List.nil_append] at hs
      rw [hdoubled, hc, infix_append_cons_iff hm, infix_append_cons_iff hm,
        infix_append_cons_iff hm, hs]
      tauto
    · have hsingle : EscapeStyle.doubledQuote.char c = [c] := if_neg hc
      have hs := ih (w ++ [c])
      rw [hcons, hsingle]
      simpa using hs

theorem infix_escape_doubledQuote_iff (hm : '\'' ∉ m) (s : Text) :
    m <:+: EscapeStyle.doubledQuote.escape s ↔ m <:+: s := infix_append_escape_iff hm [] s

/-- A pattern with a NUL and without a quote occurs inside one of the literals. -/
theorem Woven.infix_append_iff (hnul : '\x00' ∈ m) (hm : '\'' ∉ m) (h : Woven style strings t)
    {w : Text} (hw : '\x00' ∉ w) :
    m <:+: w ++ t ↔ ∃ s ∈ strings, m <:+: style.escape s := by
  have hnot : ∀ {w : Text}, '\x00' ∉ w → ¬m <:+: w := fun hw h => hw (h.subset hnul)
  induction h generalizing w with
  | nil => simpa using hnot hw
  | @char c strings t hc _ ih =>
    have hwc : '\x00' ∉ w ++ [c] := by
      rw [List.mem_append, List.mem_singleton, not_or]
      exact ⟨hw, Ne.symm hc⟩
    have hcut : w ++ c :: t = w ++ [c] ++ t := by simp
    rw [hcut]
    exact ih hwc
  | @literal strings t s _ ih =>
    have hcut : w ++ (style.quote s ++ t) = w ++ '\'' :: (style.escape s ++ '\'' :: t) := by
      simp [EscapeStyle.quote]
    have ht : m <:+: t ↔ ∃ s ∈ strings, m <:+: style.escape s := ih (w := []) List.not_mem_nil
    rw [hcut, infix_append_cons_iff hm, infix_append_cons_iff hm, ht]
    simp [hnot hw]

theorem Woven.infix_iff (hnul : '\x00' ∈ m) (hm : '\'' ∉ m) (h : Woven style strings t) :
    m <:+: t ↔ ∃ s ∈ strings, m <:+: style.escape s :=
  h.infix_append_iff hnul hm (w := []) List.not_mem_nil

end Patterns

/-! ## What slots leave -/

def Scalar.strings : Scalar → List Text
  | .text t => [t]
  | _ => []

/-- The strings that a slot writes as literals. -/
def Slot.strings (arguments : List Argument) (s : Slot) : List Text :=
  match s.piece, arguments[s.rank]?.map Argument.classify with
  | .marker .generic, some (.ok (.datum (.scalar x))) => x.strings
  | .marker .array, some (.ok (.datum (.sequence items))) => items.flatMap Scalar.strings
  | _, _ => []

namespace Context

variable {ctx : Context} {b : Builtin} {template : Text} {arguments : List Argument}

theorem woven_scalarLiteral (hescaper : ctx.escaper = .builtin b) {x : Scalar} {t : Text}
    (h : ctx.scalarLiteral x = .ok t) : Woven b.style x.strings t := by
  cases x with
  | null =>
    obtain rfl := Except.ok.inj h
    exact .of_not_mem (by decide)
  | bool v =>
    obtain rfl := Except.ok.inj h
    exact .of_not_mem (by cases v <;> decide)
  | int n => exact .of_not_mem ((ofNumber_integerText h).not_mem (by decide))
  | float x =>
    obtain rfl := Except.ok.inj h
    exact .of_not_mem ((ofNumber_literalText _ x).not_mem (by decide))
  | text s =>
    rw [scalarLiteral, hescaper] at h
    obtain rfl := Except.ok.inj h
    exact .quote s

theorem woven_array (hescaper : ctx.escaper = .builtin b) {items : List Scalar} {t : Text}
    (h : ctx.array (.datum (.sequence items)) = .ok t) :
    Woven b.style (items.flatMap Scalar.strings) t := by
  rw [array] at h
  cases hts : items.mapM ctx.scalarLiteral with
  | error e =>
    rw [hts] at h
    cases h
  | ok ts =>
    have hg : ∀ x y, ctx.scalarLiteral x = .ok y → y = (ctx.scalarLiteral x).toOption.getD [] := by
      intro x y hy
      rw [hy]
      rfl
    obtain ⟨hall, rfl⟩ := (mapM_eq_ok_iff hg).1 hts
    rw [hts] at h
    obtain rfl := Except.ok.inj h
    exact .commaSeparated fun x hx => woven_scalarLiteral hescaper (hall x hx)

end Context

/-- A slot of the template's own text, or a marker that writes literals and numbers only. -/
def Slot.WritesLiterals (arguments : List Argument) (s : Slot) : Prop :=
  match s.piece with
  | .marker .array =>
    ∃ a items, arguments[s.rank]? = some a ∧ a.classify = .ok (.datum (.sequence items))
  | .marker .identifier => False
  | _ => True

namespace Context

variable {ctx : Context} {b : Builtin} {template : Text} {arguments : List Argument}

theorem woven_render (hescaper : ctx.escaper = .builtin b) {m : Marker} {rank : Nat}
    {a : Argument} {d : Datum} {t : Text} (ha : arguments[rank]? = some a)
    (hd : a.classify = .ok (.datum d))
    (hwrites : Slot.WritesLiterals arguments ⟨.marker m, rank⟩) (h : ctx.render m d = .ok t) :
    Woven b.style (Slot.strings arguments ⟨.marker m, rank⟩) t := by
  cases m with
  | generic =>
    cases d with
    | scalar x =>
      simp only [Slot.strings, ha, Option.map_some, hd]
      exact woven_scalarLiteral hescaper h
    | sequence items => cases h
    | mapping entries => cases h
  | integer =>
    simp only [Slot.strings]
    simp only [render, Except.bind] at h
    split at h
    · cases h
    · exact .of_not_mem ((ofNumber_integerText h).not_mem (by decide))
  | float =>
    simp only [Slot.strings]
    simp only [render, Except.map] at h
    split at h
    · cases h
    · obtain rfl := Except.ok.inj h
      exact .of_not_mem ((ofNumber_literalText _ _).not_mem (by decide))
  | array =>
    obtain ⟨a', items, ha', hitems⟩ := hwrites
    rw [ha] at ha'
    obtain rfl := Option.some.inj ha'
    rw [hd] at hitems
    obtain rfl : d = .sequence items := by simpa using hitems
    simp only [Slot.strings, ha, Option.map_some, hd]
    exact woven_array hescaper h
  | identifier => exact hwrites.elim

theorem woven_fillSlot (hescaper : ctx.escaper = .builtin b) (hnul : '\x00' ∉ template)
    {s : Slot} {t : Text} (hs : s ∈ Slot.ofText template)
    (hskip : s.takesSkip arguments = false) (hwrites : s.WritesLiterals arguments)
    (h : ctx.fillSlot arguments s = .ok t) : Woven b.style (s.strings arguments) t := by
  obtain ⟨p, rank⟩ := s
  cases p with
  | char c =>
    obtain rfl := Except.ok.inj h
    have hc : c ≠ '\x00' := fun hc => hnul (hc ▸ mem_template_of_char hs)
    exact .of_not_mem (by simpa using Ne.symm hc)
  | marker m =>
    simp only [fillSlot] at h
    split at h
    · rename_i a ha
      rw [renderArgument] at h
      split at h
      · rename_i hclassify
        simp [Slot.takesSkip, Piece.isMarker, ha, Argument.isSkip, hclassify] at hskip
      · rename_i d hd
        exact woven_render hescaper ha hd hwrites h
      · cases h
    · cases h

/-- **The first pass weaves literals.** -/
theorem woven_substitute (hescaper : ctx.escaper = .builtin b) (hnul : '\x00' ∉ template)
    (hskip : ∀ a ∈ arguments, a.isSkip = false)
    (hwrites : ∀ s ∈ Slot.ofText template, s.WritesLiterals arguments) {text : Text}
    {cursor : Cursor} (h : ctx.substitute template (.start arguments) = .ok text cursor) :
    Woven b.style ((Slot.ofText template).flatMap (Slot.strings arguments)) text := by
  obtain ⟨hall, rfl, -⟩ := substitute_eq_ok_iff.1 h
  rw [List.flatMap_assoc]
  apply Woven.flatMap
  intro s hs
  have hkeep : s.takesSkip arguments = false := by
    cases hs : s.takesSkip arguments with
    | false => rfl
    | true =>
      rw [Slot.takesSkip, Bool.and_eq_true] at hs
      obtain ⟨a, ha, hskip'⟩ := (Option.any_eq_true _ _).1 hs.2
      rw [hskip a (List.mem_of_getElem? ha)] at hskip'
      cases hskip'
  exact woven_fillSlot hescaper hnul hs hkeep (hwrites s hs) (hall s hs)

end Context

end QueryTemplate
