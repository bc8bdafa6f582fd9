import QueryTemplate.Proofs.Classification
import QueryTemplate.Proofs.Counting
import QueryTemplate.Proofs.ListReading

/-!
# Failures of conversions

Which conversions fail, and how, when the integers of an argument are short enough to be written and
the escaper is a built-in one. An array has no literal and a scalar is no array; and a number that
is too long to be read or too large for floating point is not converted (`Marker.Fails`). Nothing
else fails (`renderArgument_error_iff`).
-/

namespace QueryTemplate

/-! ## Conversions of data -/

/-- The failures of conversions: what a marker cannot make of a datum, and with which error. -/
inductive Marker.Fails : Marker → Datum → BuildError → Prop where
  | notScalar {d : Datum} (h : ∀ s, d ≠ .scalar s) : Fails .generic d (.unsupported d.kind)
  | notArray (s : Scalar) : Fails .array (.scalar s) (.template (.notAnArray ['?', 'a'] "scalar"))
  | unreadable {m : Marker} {t : Text} {n : Numeral} (hm : m = .integer ∨ m = .float)
    (hn : Numeral.leading? t = some n) (hu : n.Unmarked) (hlength : digitLimit < n.whole.length) :
    Fails m (.scalar (.text t)) (.unreadableInteger n.whole.length)
  | tooLarge {i : Int} (hi : Binary64.overflowBound ≤ i.natAbs) :
    Fails .float (.scalar (.int i)) .integerTooLarge
  | spelledTooLarge {t : Text} {n : Numeral} (hn : Numeral.leading? t = some n) (hu : n.Unmarked)
    (hlength : n.whole.length ≤ digitLimit)
    (hlarge : Binary64.overflowBound ≤ digitsValue n.whole) :
    Fails .float (.scalar (.text t)) .integerTooLarge

namespace Marker

theorem fails_generic_iff (d : Datum) (e : BuildError) :
    Fails .generic d e ↔ (∀ s, d ≠ .scalar s) ∧ e = .unsupported d.kind := by
  constructor
  · intro h
    cases h with
    | notScalar h => exact ⟨h, rfl⟩
    | unreadable hm => rcases hm with hm | hm <;> cases hm
  · rintro ⟨h, rfl⟩
    exact .notScalar h

theorem fails_array_iff (d : Datum) (e : BuildError) :
    Fails .array d e ↔ ∃ s, d = .scalar s ∧ e = .template (.notAnArray ['?', 'a'] "scalar") := by
  constructor
  · intro h
    cases h with
    | notArray s => exact ⟨s, rfl, rfl⟩
    | unreadable hm => rcases hm with hm | hm <;> cases hm
  · rintro ⟨s, rfl, rfl⟩
    exact .notArray s

theorem not_fails_identifier (d : Datum) (e : BuildError) : ¬Fails .identifier d e := by
  intro h
  cases h with
  | unreadable hm => rcases hm with hm | hm <;> cases hm

theorem fails_integer_iff (d : Datum) (e : BuildError) :
    Fails .integer d e ↔ d.number = .error e := by
  rw [Datum.number_error_iff]
  constructor
  · intro h
    cases h with
    | unreadable hm hn hu hlength => exact ⟨_, _, rfl, hn, hu, hlength, rfl⟩
  · rintro ⟨t, n, rfl, hn, hu, hlength, rfl⟩
    exact .unreadable (.inl rfl) hn hu hlength

theorem fails_float_iff (d : Datum) (e : BuildError) :
    Fails .float d e ↔ d.toBinary64 = .error e := by
  rw [Datum.toBinary64_error_iff, Datum.number_error_iff]
  constructor
  · intro h
    cases h with
    | unreadable hm hn hu hlength => exact .inl ⟨_, _, rfl, hn, hu, hlength, rfl⟩
    | tooLarge hi => exact .inr ⟨_, rfl, hi, rfl⟩
    | spelledTooLarge hn hu hlength hlarge =>
      rename_i t n
      refine .inr ⟨Sign.apply n.sign (digitsValue n.whole), ?_, ?_, rfl⟩
      · rw [Datum.number_text hn, n.number_of_short hn hu hlength]
      · rwa [Sign.natAbs_apply]
  · rintro (⟨t, n, rfl, hn, hu, hlength, rfl⟩ | ⟨i, hd, hi, rfl⟩)
    · exact .unreadable (.inr rfl) hn hu hlength
    · rcases (d.number_eq_int_iff hi).1 hd with rfl | ⟨t, n, rfl, hn, hu, hlength, rfl⟩
      · exact .tooLarge hi
      · rw [Sign.natAbs_apply] at hi
        exact .spelledTooLarge hn hu hlength hi

end Marker

namespace Context

variable {ctx : Context} {b : Builtin} {d : Datum}

theorem exists_map {α β ε : Type} {r : Except ε α} {f : α → β} (h : ∃ x, r = .ok x) :
    ∃ y, r.map f = .ok y := by
  obtain ⟨x, rfl⟩ := h
  exact ⟨f x, rfl⟩

theorem exists_mapM {α β ε : Type} {f : α → Except ε β} {xs : List α}
    (h : ∀ x ∈ xs, ∃ y, f x = .ok y) : ∃ ys, xs.mapM f = .ok ys := by
  induction xs with
  | nil => exact ⟨[], rfl⟩
  | cons x xs ih =>
    rw [List.forall_mem_cons] at h
    obtain ⟨⟨y, hy⟩, hxs⟩ := h
    obtain ⟨ys, hys⟩ := ih hxs
    rw [List.mapM_cons, hy, hys]
    exact ⟨y :: ys, rfl⟩

theorem exists_scalarLiteral (hescaper : ctx.escaper = .builtin b) {s : Scalar} (h : s.Writable) :
    ∃ t, ctx.scalarLiteral s = .ok t :=
  ((ctx.scalarLiteral_and_name hescaper s).1 h).1

theorem exists_identifier (hescaper : ctx.escaper = .builtin b) {s : Scalar} (h : s.Writable) :
    ∃ t, ctx.identifier s = .ok t :=
  exists_map ((ctx.scalarLiteral_and_name hescaper s).1 h).2

theorem exists_render_identifier (hescaper : ctx.escaper = .builtin b)
    (hd : ∀ s ∈ d.scalars, s.Writable) : ∃ t, ctx.render .identifier d = .ok t := by
  cases d with
  | scalar s => exact exists_identifier hescaper (hd s (List.mem_singleton.2 rfl))
  | sequence items =>
    exact exists_map (exists_mapM fun s hs => exists_identifier hescaper (hd s hs))
  | mapping entries =>
    exact exists_map (exists_mapM fun entry hentry =>
      exists_identifier hescaper (hd entry.2 (List.mem_map_of_mem hentry)))

theorem exists_render_array (hescaper : ctx.escaper = .builtin b)
    (hd : ∀ s ∈ d.scalars, s.Writable) (harray : ∀ s, d ≠ .scalar s) :
    ∃ t, ctx.render .array d = .ok t := by
  cases d with
  | scalar s => exact absurd rfl (harray s)
  | sequence items =>
    exact exists_map (exists_mapM fun s hs => exists_scalarLiteral hescaper (hd s hs))
  | mapping entries =>
    exact exists_map (exists_mapM fun entry hentry =>
      exists_map (exists_scalarLiteral hescaper (hd entry.2 (List.mem_map_of_mem hentry))))

theorem render_integer_error_iff (hd : ∀ s ∈ d.scalars, s.Writable) (e : BuildError) :
    ctx.render .integer d = .error e ↔ d.number = .error e := by
  rw [render, Datum.toInt]
  cases hx : d.number with
  | error e' => simp [Except.map, Except.bind]
  | ok x =>
    obtain ⟨t, ht⟩ := Datum.exists_integerText hd hx
    refine iff_of_false (fun h => ?_) (fun h => ?_)
    · rw [Except.map, Except.bind, ht] at h
      cases h
    · cases h

theorem render_generic_error_iff (hescaper : ctx.escaper = .builtin b)
    (hd : ∀ s ∈ d.scalars, s.Writable) (e : BuildError) :
    ctx.render .generic d = .error e ↔ Marker.Fails .generic d e := by
  cases d with
  | scalar s =>
    obtain ⟨t, ht⟩ := exists_scalarLiteral hescaper (hd s (List.mem_singleton.2 rfl))
    have hok : ctx.render .generic (.scalar s) = .ok t := ht
    rw [hok, Marker.fails_generic_iff]
    exact iff_of_false nofun fun h => h.1 s rfl
  | sequence items =>
    rw [Marker.fails_generic_iff]
    exact ⟨fun h => ⟨nofun, (Except.error.inj h).symm⟩, fun h => h.2 ▸ rfl⟩
  | mapping entries =>
    rw [Marker.fails_generic_iff]
    exact ⟨fun h => ⟨nofun, (Except.error.inj h).symm⟩, fun h => h.2 ▸ rfl⟩

theorem render_error_iff (hescaper : ctx.escaper = .builtin b)
    (hd : ∀ s ∈ d.scalars, s.Writable) (m : Marker) (e : BuildError) :
    ctx.render m d = .error e ↔ m.Fails d e := by
  cases m with
  | generic => exact render_generic_error_iff hescaper hd e
  | integer => rw [render_integer_error_iff hd, Marker.fails_integer_iff]
  | float =>
    rw [Marker.fails_float_iff, render]
    cases d.toBinary64 <;> simp [Except.map]
  | array =>
    rw [Marker.fails_array_iff]
    by_cases harray : ∃ s, d = .scalar s
    · obtain ⟨s, rfl⟩ := harray
      constructor
      · intro h
        exact ⟨s, rfl, (Except.error.inj h).symm⟩
      · rintro ⟨-, -, rfl⟩
        rfl
    · obtain ⟨t, ht⟩ := exists_render_array hescaper hd (not_exists.1 harray)
      rw [ht]
      refine iff_of_false (fun h => by cases h) ?_
      rintro ⟨s, hs, -⟩
      exact harray ⟨s, hs⟩
  | identifier =>
    obtain ⟨t, ht⟩ := exists_render_identifier hescaper hd
    rw [ht]
    exact iff_of_false (fun h => by cases h) (Marker.not_fails_identifier d e)

end Context

/-! ## Conversions of arguments -/

namespace Argument

/-- The integers that an argument is, or holds as elements or as keys, are short enough to be
written. -/
def Writable : Argument → Prop
  | scalar s => s.Writable
  | list items => ∀ s, scalar s ∈ items → s.Writable
  | tuple items => ∀ s, scalar s ∈ items → s.Writable
  | map entries => ∀ entry ∈ entries, entry.1.Writable ∧ ∀ s, entry.2 = scalar s → s.Writable
  | value .skip => True
  | value (.datum d) => ∀ s ∈ d.scalars, s.Writable
  | foreign _ => True

theorem unsupported_of_refusal? {items : List Argument} {e : BuildError}
    (h : items.findSome? refusal? = some e) : ∃ name, e = .unsupported name := by
  obtain ⟨a, -, ha⟩ := List.exists_of_findSome?_eq_some h
  cases a with
  | scalar s => cases ha
  | _ => exact ⟨_, (Option.some.inj ha).symm⟩

theorem unsupported_of_classify {a : Argument} {e : BuildError} (ha : a.Writable)
    (h : a.classify = .error e) : ∃ name, e = .unsupported name := by
  have hlist : ∀ items : List Argument, classify (.list items) = .error e →
      ∃ name, e = .unsupported name := by
    intro items hitems
    have hout := outcome_list items
    rw [hitems] at hout
    exact unsupported_of_refusal? hout.eq_some
  cases a with
  | scalar s => cases h
  | list items => exact hlist items h
  | tuple items => exact hlist items h
  | map entries =>
    by_cases hcount : CountUp (entries.map Prod.fst)
    · rw [classify_indexed hcount] at h
      exact hlist _ h
    · have hkeys : ∀ key ∈ entries.map Prod.fst, key.Writable := by
        intro key hkey
        obtain ⟨entry, hentry, rfl⟩ := List.mem_map.1 hkey
        exact (ha entry hentry).1
      have hout := outcome_associative hcount
      rw [h, findSome?_obstacle? hkeys] at hout
      exact unsupported_of_refusal? hout.eq_some
  | value v => cases h
  | foreign name => exact ⟨name, (Except.error.inj h).symm⟩

theorem exists_of_forall₂ {α β : Type} {R : α → β → Prop} {xs : List α} {ys : List β}
    (h : List.Forall₂ R xs ys) {y : β} (hy : y ∈ ys) : ∃ x ∈ xs, R x y := by
  induction h with
  | nil => cases hy
  | cons hxy hrest ih =>
    rcases List.mem_cons.1 hy with rfl | hy
    · exact ⟨_, List.mem_cons_self, hxy⟩
    · obtain ⟨x, hx, hxy⟩ := ih hy
      exact ⟨x, List.mem_cons_of_mem _ hx, hxy⟩

theorem writable_of_classify {a : Argument} {d : Datum} (ha : a.Writable)
    (h : a.classify = .ok (.datum d)) : ∀ s ∈ d.scalars, s.Writable := by
  have hlist : ∀ items : List Argument, (∀ s, scalar s ∈ items → s.Writable) →
      classify (.list items) = .ok (.datum d) → ∀ s ∈ d.scalars, s.Writable := by
    intro items hitems hok s hs
    have hout := outcome_list items
    rw [hok] at hout
    obtain ⟨scalars, rfl, hd⟩ := hout.of_ok
    obtain rfl := Value.datum.inj hd
    exact hitems s (List.mem_map_of_mem hs)
  cases a with
  | scalar s =>
    obtain rfl := Value.datum.inj (Except.ok.inj h)
    intro s' hs
    rwa [List.mem_singleton.1 hs]
  | list items => exact hlist items ha h
  | tuple items => exact hlist items ha h
  | map entries =>
    by_cases hcount : CountUp (entries.map Prod.fst)
    · rw [classify_indexed hcount] at h
      refine hlist _ (fun s hs => ?_) h
      obtain ⟨entry, hentry, hs⟩ := List.mem_map.1 hs
      exact (ha entry hentry).2 s hs
    · have hout := outcome_associative hcount
      rw [h] at hout
      obtain ⟨labelled, t, hlabels, hlast, hd⟩ := hout.of_ok
      obtain rfl := Value.datum.inj hd
      intro s hs
      obtain ⟨⟨label, s⟩, hmem, rfl⟩ := List.mem_map.1 hs
      obtain ⟨before, after, rfl, -⟩ := (hlast.mem_iff label s).1 hmem
      obtain ⟨entry, hentry, -, hscalar⟩ :=
        exists_of_forall₂ hlabels (List.mem_append_right before List.mem_cons_self)
      exact (ha entry hentry).2 s hscalar
  | value v =>
    obtain rfl := Except.ok.inj h
    exact ha
  | foreign name => cases h

end Argument

namespace Context

/-- **Exactly when a conversion fails.** Let the escaper be a built-in one, and the integers of an
argument short enough to be written. An argument that cannot be classified fails under every marker,
with the same error, and a skip under none. Any other one fails as `Marker.Fails` says: so it always
has names, and an integer unless it is a text that begins with a numeral without a decimal point and
without an exponent. -/
theorem renderArgument_error_iff (b : Builtin) (settings : Settings) (skipMarker : Text)
    {a : Argument} (ha : a.Writable) :
    let ctx : Context := ⟨.builtin b, settings, skipMarker⟩
    (∀ e, a.classify = .error e →
      (∃ name, e = .unsupported name) ∧ ∀ m, ctx.renderArgument m a = .error e) ∧
    (a.classify = .ok .skip → ∀ m, ctx.renderArgument m a = .ok skipMarker) ∧
    ∀ d, a.classify = .ok (.datum d) →
      (∀ m e, ctx.renderArgument m a = .error e ↔ m.Fails d e) ∧
      (∃ t, ctx.renderArgument .identifier a = .ok t) ∧
      ((∀ t n, d = .scalar (.text t) → Numeral.leading? t = some n → ¬n.Unmarked) →
        ∃ t, ctx.renderArgument .integer a = .ok t) := by
  intro ctx
  refine ⟨fun e he => ⟨a.unsupported_of_classify ha he, fun m => ?_⟩, fun hskip m => ?_,
    fun d hd => ?_⟩
  · rw [renderArgument, he]
  · rw [renderArgument, hskip]
  · have hrender : ∀ m, ctx.renderArgument m a = ctx.render m d := fun m => by
      rw [renderArgument, hd]
    have hwritable := a.writable_of_classify ha hd
    have hiff : ∀ m e, ctx.render m d = .error e ↔ m.Fails d e := render_error_iff rfl hwritable
    refine ⟨fun m e => ?_, ?_, fun hmarked => ?_⟩
    · rw [hrender, hiff]
    · rw [hrender]
      exact exists_render_identifier rfl hwritable
    · rw [hrender]
      cases hout : ctx.render .integer d with
      | ok t => exact ⟨t, rfl⟩
      | error e =>
        obtain ⟨t, n, hdt, hn, hu, -⟩ := (d.number_error_iff e).1
          ((render_integer_error_iff hwritable e).1 hout)
        exact absurd hu (hmarked t n hdt hn)

/-- The least integer that is too large, the one before it, a number where an array has to be, and a
list in a list. -/
theorem renderArgument_error_iff_bound :
    (⟨.builtin .mysql, {}, []⟩ : Context).renderArgument .float
        (.scalar (.int Binary64.overflowBound)) = .error .integerTooLarge ∧
    (∃ t, (⟨.builtin .mysql, {}, []⟩ : Context).renderArgument .float
        (.scalar (.int (Binary64.overflowBound - 1 : Nat))) = .ok t) ∧
    (⟨.builtin .mysql, {}, []⟩ : Context).renderArgument .array
        (.scalar (.int Binary64.overflowBound)) =
      .error (.template (.notAnArray ['?', 'a'] "scalar")) ∧
    ∀ m, (⟨.builtin .mysql, {}, []⟩ : Context).renderArgument m (.list [.list []]) =
      .error (.unsupported "list") := by
  have hshort : ∀ n : Nat, n ≤ Binary64.overflowBound →
      (Argument.scalar (.int n)).Writable := by
    intro n hn
    rw [Argument.Writable, Scalar.writable_int_iff, Text.length_ofNat_le_digitLimit,
      Int.natAbs_natCast]
    exact Nat.lt_of_le_of_lt hn (by decide +kernel)
  obtain ⟨-, -, hlarge⟩ := renderArgument_error_iff .mysql {} [] (hshort _ (Nat.le_refl _))
  obtain ⟨-, -, hless⟩ := renderArgument_error_iff .mysql {} [] (hshort _ (Nat.sub_le _ 1))
  have hnested : (Argument.list [.list []]).Writable := by
    intro s hs
    cases List.mem_singleton.1 hs
  obtain ⟨hlist, -, -⟩ := renderArgument_error_iff .mysql {} [] hnested
  refine ⟨((hlarge _ rfl).1 _ _).2 (.tooLarge ?_), ?_, ((hlarge _ rfl).1 _ _).2 (.notArray _),
    (hlist _ rfl).2⟩
  · rw [Int.natAbs_natCast]
  · cases hout : (⟨.builtin .mysql, {}, []⟩ : Context).renderArgument .float
        (.scalar (.int (Binary64.overflowBound - 1 : Nat))) with
    | ok t => exact ⟨t, rfl⟩
    | error e =>
      cases ((hless _ rfl).1 _ _).1 hout with
      | tooLarge hi =>
        rw [Int.natAbs_natCast] at hi
        have hone := Binary64.one_lt_overflowBound
        omega

end Context

end QueryTemplate
