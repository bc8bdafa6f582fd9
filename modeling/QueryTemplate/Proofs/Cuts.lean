import QueryTemplate.Proofs.Layout

/-!
# Cutting a template

The first pass may go over a template piece by piece, with one cursor for all pieces. A cut may lie
anywhere, inside a fragment too, except between a question mark and the type code that belongs to
it: the pieces of a template are those of its parts (`ofText_append`), so the pass over the whole is
the passes over the parts, one after the other, as long as they succeed. A forbidden cut is seen in
the error of a marker that finds no argument (`exists_substitute_ne`).
-/

namespace QueryTemplate

/-- A cut takes a question mark apart from its type code. -/
def Text.SplitsMarker (before after : Text) : Prop :=
  before.getLast? = some '?' ∧ ∃ c ∈ after.head?, c ∈ ['d', 'f', 'a', '#']

namespace Text.SplitsMarker

variable {before after : Text}

theorem append_right (h : SplitsMarker before after) (rest : Text) :
    SplitsMarker before (after ++ rest) := by
  obtain ⟨hlast, c, hc, hcode⟩ := h
  exact ⟨hlast, c, by rw [List.head?_append_of_ne_nil _ (by rintro rfl; cases hc)]; exact hc, hcode⟩

theorem append_left (h : SplitsMarker before after) (front : Text) :
    SplitsMarker (front ++ before) after := by
  refine ⟨?_, h.2⟩
  rw [List.getLast?_append, h.1]
  rfl

end Text.SplitsMarker

open Text

namespace Piece

theorem typeCode?_append {xs : List Piece} (h : xs ≠ []) (ys : List Piece) :
    typeCode? (xs ++ ys) = (typeCode? xs).map fun (m, rest) => (m, rest ++ ys) := by
  cases xs with
  | nil => exact absurd rfl h
  | cons p rest =>
    cases p with
    | marker m => rfl
    | char c =>
      rw [List.cons_append, typeCode?, typeCode?]
      cases Marker.ofChar? c <;> rfl

theorem push_append {c : Char} {xs : List Piece} (h : c = '?' → xs ≠ []) (ys : List Piece) :
    push c (xs ++ ys) = push c xs ++ ys := by
  rw [push, push]
  split
  · rename_i hc
    rw [typeCode?_append (h hc)]
    cases typeCode? xs <;> rfl
  · rfl

theorem ofText_ne_nil {t : Text} (h : t ≠ []) : ofText t ≠ [] := by
  intro hnil
  rw [← text_ofText t, hnil] at h
  exact h rfl

theorem ofText_append {s t : Text} (h : ¬SplitsMarker s t) :
    ofText (s ++ t) = ofText s ++ ofText t := by
  induction s with
  | nil => rfl
  | cons c s ih =>
    cases s with
    | nil =>
      by_cases hc : c = '?'
      · subst hc
        exact Layout.ofText_marker_append (m := .generic) fun _ c hc hcode => h ⟨rfl, c, hc, hcode⟩
      · have hpush : push c ([] ++ ofText t) = push c [] ++ ofText t :=
          push_append (fun h => absurd h hc) _
        exact hpush
    | cons d s =>
      have hrest : ¬SplitsMarker (d :: s) t := fun hsplit => h (hsplit.append_left [c])
      rw [List.cons_append, Layout.ofText_cons, ih hrest,
        push_append fun _ => ofText_ne_nil (List.cons_ne_nil d s), ← Layout.ofText_cons]

end Piece

/-! ## The first pass over parts -/

namespace Context

variable (ctx : Context)

def substituteAll : List Text → Scan Text
  | [] => return []
  | t :: rest => do
    let text ← ctx.substitute t
    let others ← substituteAll rest
    return text ++ others

theorem substitute_eq_substitutePieces (t : Text) :
    ctx.substitute t = ctx.substitutePieces (Piece.ofText t) := rfl

theorem substitute_append {s t : Text} (h : ¬SplitsMarker s t) :
    ctx.substitute (s ++ t) = do
      let text ← ctx.substitute s
      let others ← ctx.substitute t
      return text ++ others := by
  rw [substitute_eq_substitutePieces, Piece.ofText_append h, substitutePieces_append]
  rfl

def CutsWell (texts : List Text) : Prop :=
  ∀ before after, texts = before ++ after → ¬SplitsMarker before.flatten after.flatten

theorem CutsWell.tail {t : Text} {rest : List Text} (h : CutsWell (t :: rest)) : CutsWell rest := by
  rintro before after rfl hsplit
  exact h (t :: before) after rfl (hsplit.append_left t)

theorem substitute_flatten {texts : List Text} (h : CutsWell texts) :
    ctx.substitute texts.flatten = ctx.substituteAll texts := by
  induction texts with
  | nil => rfl
  | cons t rest ih =>
    have hcut : ¬SplitsMarker t rest.flatten := by
      have hfirst := h [t] rest rfl
      rwa [List.flatten_cons, List.flatten_nil, List.append_nil] at hfirst
    rw [List.flatten_cons, substitute_append ctx hcut, ih h.tail]
    rfl

theorem substituteAll_append (xs ys : List Text) :
    ctx.substituteAll (xs ++ ys) = do
      let text ← ctx.substituteAll xs
      let others ← ctx.substituteAll ys
      return text ++ others := by
  have hassoc : ∀ s t : Text, HAppend.hAppend (s ++ t) = fun u => s ++ (t ++ u) :=
    fun s t => funext fun u => List.append_assoc s t u
  induction xs with
  | nil => simp [substituteAll]
  | cons t rest ih => simp [substituteAll, ih, hassoc]

/-! ## Cuts that take a marker apart -/

def skipsFor (t : Text) : List Argument := .replicate (t.count '?') (.value .skip)

theorem substitute_skipsFor (t : Text) : ∃ text,
    ctx.substitute t (.start (skipsFor t)) = .ok text ⟨skipsFor t, (t.count '?' : Nat)⟩ := by
  have hof := Layout.of_ofPieces t
  have hrendered : ctx.Rendered (skipsFor t) 0 (Layout.ofPieces (Piece.ofText t)).markers
      (.replicate (t.count '?') ctx.skipMarker) := by
    intro i m hm
    obtain ⟨hi, -⟩ := List.getElem?_eq_some_iff.1 hm
    rw [hof.length_markers] at hi
    exact ⟨.value .skip, ctx.skipMarker, by simp [skipsFor, hi], rfl, by simp [hi]⟩
  have hpieces := substitutePieces_pieces hrendered
  rw [Layout.pieces_ofPieces, hof.length_markers, Nat.zero_add] at hpieces
  exact ⟨_, hpieces⟩

theorem substitute_skipsFor_marker (t : Text) (m : Marker) (rest : Text)
    (h : m = .generic → ∀ c ∈ rest.head?, c ∉ ['d', 'f', 'a', '#']) :
    ctx.substitute (t ++ (m.text ++ rest)) (.start (skipsFor t)) =
      .error (.template (.missingArgument (t.count '?' : Nat) m.text (skipsFor t).length))
        ⟨skipsFor t, (t.count '?' : Nat)⟩ := by
  have hmark : ¬SplitsMarker t (m.text ++ rest) := by
    rintro ⟨-, c, hc, hcode⟩
    obtain rfl : '?' = c := Option.some.inj hc
    exact absurd hcode (by decide)
  have hnone : (skipsFor t)[t.count '?']? = none := by simp [skipsFor]
  have hfill := fill_marker ctx (skipsFor t) m (t.count '?')
  rw [hnone] at hfill
  obtain ⟨text, htext⟩ := ctx.substitute_skipsFor t
  have hpieces : Piece.ofText (t ++ (m.text ++ rest)) =
      Piece.ofText t ++ ([.marker m] ++ Piece.ofText rest) := by
    rw [Piece.ofText_append hmark, Layout.ofText_marker_append h]
    rfl
  rw [substitute_eq_substitutePieces, hpieces, substitutePieces_ok ctx htext,
    substitutePieces_error ctx ((substitutePieces_singleton ctx _ _).trans hfill)]

/-- **A cut that takes a marker apart can be seen**: without an argument for it, the whole marker is
missed by the pass over the whole, and only its question mark by the passes over the parts. -/
theorem exists_substitute_ne {before after : List Text}
    (h : SplitsMarker before.flatten after.flatten) :
    ∃ arguments, ctx.substitute (before ++ after).flatten (.start arguments) ≠
      ctx.substituteAll (before ++ after) (.start arguments) := by
  -- by strong induction, as a part before the first such cut has none of its own
  induction hn : before.length using Nat.strongRecOn generalizing before after with
  | ind n ih =>
    subst hn
    by_cases hcut : CutsWell before
    · obtain ⟨t, ht⟩ := List.getLast?_eq_some_iff.1 h.1
      obtain ⟨c, hc, hcode⟩ := h.2
      obtain ⟨rest, hrest⟩ := List.head?_eq_some_iff.1 hc
      obtain ⟨m, hm⟩ : ∃ m, Marker.ofChar? c = some m := by
        rw [← Option.ne_none_iff_exists', ne_eq, Marker.ofChar?_eq_none_iff, not_not]
        exact hcode
      have hmtext : m.text = ['?', c] := by rw [Marker.text, Marker.code_of_ofChar? hm]
      have hne : m.text ≠ Marker.generic.text := by
        rw [hmtext]
        simp [Marker.text, Marker.code]
      have hwhole := ctx.substitute_skipsFor_marker t m rest
        fun hgeneric => absurd (congrArg Marker.text hgeneric) hne
      have hparts := ctx.substitute_skipsFor_marker t .generic [] fun _ _ hc => by cases hc
      have hflatten : (before ++ after).flatten = t ++ (m.text ++ rest) := by
        rw [List.flatten_append, ht, hrest, hmtext, List.append_assoc]
        rfl
      have hbefore : ctx.substituteAll before =
          ctx.substitute (t ++ (Marker.generic.text ++ [])) := by
        rw [← ctx.substitute_flatten hcut, ht]
        rfl
      refine ⟨skipsFor t, ?_⟩
      rw [hflatten, hwhole, substituteAll_append, scan_bind, hbefore, hparts]
      simp only [ne_eq, EStateM.Result.error.injEq, BuildError.template.injEq,
        TemplateError.missingArgument.injEq, and_true, true_and]
      exact hne
    · obtain ⟨front, back, hsplit, hmark⟩ : ∃ front back, before = front ++ back ∧
          SplitsMarker front.flatten back.flatten := by
        simpa [CutsWell] using hcut
      subst hsplit
      have hback : back ≠ [] := by
        rintro rfl
        obtain ⟨-, c, hc, -⟩ := hmark
        cases hc
      have hlength : front.length < (front ++ back).length := by
        have hpos := List.length_pos_iff.2 hback
        rw [List.length_append]
        omega
      have hmark' : SplitsMarker front.flatten (back ++ after).flatten := by
        rw [List.flatten_append]
        exact hmark.append_right _
      have hne := ih front.length hlength hmark' rfl
      rwa [← List.append_assoc] at hne

theorem cutsWell_pair_iff (s t : Text) : CutsWell [s, t] ↔ ¬SplitsMarker s t := by
  constructor
  · intro h hsplit
    exact h [s] [t] rfl (by simpa using hsplit)
  · intro h before after heq hsplit
    match before, heq with
    | [], _ => cases hsplit.1
    | [_], heq =>
      obtain ⟨rfl, rfl⟩ := List.cons.inj heq
      exact h (by simpa using hsplit)
    | _ :: _ :: rest, heq =>
      obtain ⟨-, heq⟩ := List.cons.inj heq
      obtain ⟨-, heq⟩ := List.cons.inj heq
      obtain ⟨-, rfl⟩ := List.append_eq_nil_iff.1 heq.symm
      obtain ⟨-, c, hc, -⟩ := hsplit
      cases hc

theorem substituteAll_pair (s t : Text) (cursor : Cursor) :
    ctx.substituteAll [s, t] cursor =
      match ctx.substitute s cursor with
      | .error e c => .error e c
      | .ok text c =>
        match ctx.substitute t c with
        | .error e c => .error e c
        | .ok others c => .ok (text ++ others) c := by
  have hpair : ctx.substituteAll [s, t] = do
      let text ← ctx.substitute s
      let others ← ctx.substitute t
      return text ++ others := by
    simp [substituteAll]
  rw [hpair, scan_bind]
  cases ctx.substitute s cursor with
  | error e c => rfl
  | ok text c =>
    simp only
    rw [scan_bind]
    cases ctx.substitute t c <;> rfl

theorem cutsWell_iff (texts : List Text) :
    CutsWell texts ↔
      ∀ cursor, ctx.substitute texts.flatten cursor = ctx.substituteAll texts cursor := by
  constructor
  · intro h cursor
    rw [ctx.substitute_flatten h]
  · rintro h before after rfl hsplit
    obtain ⟨arguments, hne⟩ := ctx.exists_substitute_ne hsplit
    exact hne (h _)

/-- **Cutting a template.** The first pass over a template is the passes over its two parts with one
cursor, failures and the place where the cursor is left included, exactly if the cut does not take a
marker apart; and so it is with any number of parts. -/
theorem substitute_cuts (ctx : Context) :
    (∀ s t, ¬SplitsMarker s t ↔ ∀ cursor, ctx.substitute (s ++ t) cursor =
      match ctx.substitute s cursor with
      | .error e c => .error e c
      | .ok text c =>
        match ctx.substitute t c with
        | .error e c => .error e c
        | .ok others c => .ok (text ++ others) c) ∧
    ∀ texts, CutsWell texts ↔
      ∀ cursor, ctx.substitute texts.flatten cursor = ctx.substituteAll texts cursor := by
  refine ⟨fun s t => ?_, ctx.cutsWell_iff⟩
  have hflatten : [s, t].flatten = s ++ t := by simp
  rw [← cutsWell_pair_iff, ctx.cutsWell_iff, hflatten]
  exact forall_congr' fun cursor => by rw [substituteAll_pair]

/-- A cut inside a fragment, and one behind a question mark whose marker has another type code. -/
theorem substitute_cuts_fragment :
    ¬SplitsMarker ['{', '?'] ['}', '?', 'd'] ∧
    (⟨.builtin .mysql, {}, ['s']⟩ : Context).substitute ['{', '?', '}', '?', 'd']
        ⟨[.value .skip, .scalar (.int 7)], 0⟩ =
      .ok ['{', 's', '}', '7'] ⟨[.value .skip, .scalar (.int 7)], 2⟩ ∧
    SplitsMarker ['?'] ['d'] ∧
    ¬∀ cursor, (⟨.builtin .mysql, {}, ['s']⟩ : Context).substitute ['?', 'd'] cursor =
      (⟨.builtin .mysql, {}, ['s']⟩ : Context).substituteAll [['?'], ['d']] cursor := by
  have hcut : ¬SplitsMarker ['{', '?'] ['}', '?', 'd'] := by
    rintro ⟨-, c, hc, hcode⟩
    obtain rfl := Option.some.inj hc
    exact absurd hcode (by decide)
  have hsplit : SplitsMarker ['?'] ['d'] := ⟨rfl, 'd', rfl, by decide⟩
  refine ⟨hcut, ?_, hsplit, fun h => ?_⟩
  · exact ((substitute_cuts ⟨.builtin .mysql, {}, ['s']⟩).1 _ _).1 hcut
      ⟨[.value .skip, .scalar (.int 7)], 0⟩
  · exact ((substitute_cuts ⟨.builtin .mysql, {}, ['s']⟩).2 [['?'], ['d']]).2 h [['?']] [['d']] rfl
      hsplit

end Context

end QueryTemplate
