import QueryTemplate.Proofs.Accounting

/-!
# The layout of a template

A template is a text, then a marker, then a text, and so on to the last text behind the last marker.
No text holds a question mark, and a marker takes the type code behind it, so every template has
one layout (`Layout.of_ofPieces`, `Layout.Of.pieces_ofText`). The first pass puts the renderings of
the arguments in place of the markers and keeps the texts; where an argument is missing or cannot be
rendered it stops, and the cursor tells where (`substitute_layout`).
-/

namespace QueryTemplate

theorem Marker.ofChar?_eq_none_iff {c : Char} : ofChar? c = none ↔ c ∉ ['d', 'f', 'a', '#'] := by
  unfold ofChar?
  split <;> simp_all

/-- The text before the first marker, and each marker with the text behind it. -/
structure Layout where
  head : Text
  tail : List (Marker × Text)
deriving DecidableEq

namespace Layout

def markers (l : Layout) : List Marker := l.tail.map Prod.fst

def fill (l : Layout) (texts : List Text) : Text :=
  l.head ++ (List.zipWith (fun t entry => t ++ entry.2) texts l.tail).flatten

/-- The layout spells the template, no text between the markers holds a question mark, and a marker
has its type code exactly when one of the four follows the question mark. -/
structure Of (l : Layout) (template : Text) : Prop where
  spells : l.fill (l.markers.map Marker.text) = template
  head_no_mark : '?' ∉ l.head
  no_mark : ∀ entry ∈ l.tail, '?' ∉ entry.2
  greedy : ∀ entry ∈ l.tail, entry.1 = .generic → ∀ c ∈ entry.2.head?, c ∉ ['d', 'f', 'a', '#']

/-! ## Pieces of a layout -/

def tailPieces (tail : List (Marker × Text)) : List Piece :=
  tail.flatMap fun entry => .marker entry.1 :: entry.2.map .char

def pieces (l : Layout) : List Piece := l.head.map .char ++ tailPieces l.tail

def ofPieces : List Piece → Layout
  | [] => ⟨[], []⟩
  | .char c :: rest => ⟨c :: (ofPieces rest).head, (ofPieces rest).tail⟩
  | .marker m :: rest => ⟨[], (m, (ofPieces rest).head) :: (ofPieces rest).tail⟩

theorem pieces_ofPieces (ps : List Piece) : (ofPieces ps).pieces = ps := by
  induction ps with
  | nil => rfl
  | cons p rest ih =>
    cases p with
    | char c => exact congrArg (Piece.char c :: ·) ih
    | marker m => exact congrArg (Piece.marker m :: ·) ih

theorem tailPieces_cons (entry : Marker × Text) (rest : List (Marker × Text)) :
    tailPieces (entry :: rest) =
      [.marker entry.1] ++ (entry.2.map .char ++ tailPieces rest) := rfl

theorem tailPieces_append (xs ys : List (Marker × Text)) :
    tailPieces (xs ++ ys) = tailPieces xs ++ tailPieces ys := List.flatMap_append

theorem flatMap_text_chars (lit : Text) : (lit.map Piece.char).flatMap Piece.text = lit := by
  rw [List.flatMap_map]
  exact List.flatMap_singleton' lit

theorem flatMap_text_tailPieces (tail : List (Marker × Text)) :
    (tailPieces tail).flatMap Piece.text =
      (List.zipWith (fun t entry => t ++ entry.2) ((tail.map Prod.fst).map Marker.text)
        tail).flatten := by
  induction tail with
  | nil => rfl
  | cons entry rest ih =>
    rw [tailPieces_cons, List.flatMap_append, List.flatMap_append, flatMap_text_chars, ih]
    simp [Piece.text]

theorem flatMap_text_pieces (l : Layout) :
    l.pieces.flatMap Piece.text = l.fill (l.markers.map Marker.text) := by
  rw [pieces, List.flatMap_append, flatMap_text_chars, flatMap_text_tailPieces]
  rfl

/-! ## The layout of a template -/

theorem typeCode?_eq_none {ps : List Piece} (h : Piece.typeCode? ps = none) :
    ∀ c ∈ (ofPieces ps).head.head?, c ∉ ['d', 'f', 'a', '#'] := by
  intro c hc
  cases ps with
  | nil => cases hc
  | cons p rest =>
    cases p with
    | marker m => cases hc
    | char k =>
      obtain rfl : k = c := by simpa [ofPieces] using hc
      rw [← Marker.ofChar?_eq_none_iff]
      simpa [Piece.typeCode?] using h

theorem of_typeCode?_eq_some {ps rest : List Piece} {m : Marker}
    (h : Piece.typeCode? ps = some (m, rest)) : m ≠ .generic ∧ ∃ c, ps = .char c :: rest := by
  cases ps with
  | nil => cases h
  | cons p tail =>
    cases p with
    | marker m' => cases h
    | char c =>
      obtain ⟨m', hm, hp⟩ := Option.map_eq_some_iff.1 h
      obtain ⟨rfl, rfl⟩ := Prod.mk.inj hp
      refine ⟨?_, c, rfl⟩
      rintro rfl
      simpa [Marker.code] using Marker.code_of_ofChar? hm

theorem ofText_cons (c : Char) (t : Text) :
    Piece.ofText (c :: t) = Piece.push c (Piece.ofText t) := rfl

theorem of_ofPieces (template : Text) : (ofPieces (Piece.ofText template)).Of template := by
  have hspells : (ofPieces (Piece.ofText template)).fill
      ((ofPieces (Piece.ofText template)).markers.map Marker.text) = template := by
    rw [← flatMap_text_pieces, pieces_ofPieces, Piece.text_ofText]
  suffices h : '?' ∉ (ofPieces (Piece.ofText template)).head ∧
      (∀ entry ∈ (ofPieces (Piece.ofText template)).tail, '?' ∉ entry.2) ∧
      ∀ entry ∈ (ofPieces (Piece.ofText template)).tail, entry.1 = .generic →
        ∀ c ∈ entry.2.head?, c ∉ ['d', 'f', 'a', '#'] from ⟨hspells, h.1, h.2.1, h.2.2⟩
  clear hspells
  induction template with
  | nil => simp [Piece.ofText, ofPieces]
  | cons c template ih =>
    rw [ofText_cons, Piece.push]
    generalize Piece.ofText template = ps at ih
    obtain ⟨hhead, htail, hgreedy⟩ := ih
    split
    · split
      · -- the type code leaves the text before the marker
        rename_i m rest hcode
        obtain ⟨hne, k, rfl⟩ := of_typeCode?_eq_some hcode
        refine ⟨List.not_mem_nil, List.forall_mem_cons.2 ⟨?_, htail⟩,
          List.forall_mem_cons.2 ⟨fun h => absurd h hne, hgreedy⟩⟩
        exact fun h => hhead (List.mem_cons_of_mem _ h)
      · rename_i hcode
        exact ⟨List.not_mem_nil, List.forall_mem_cons.2 ⟨hhead, htail⟩,
          List.forall_mem_cons.2 ⟨fun _ => typeCode?_eq_none hcode, hgreedy⟩⟩
    · rename_i hc
      refine ⟨?_, htail, hgreedy⟩
      rw [ofPieces, List.mem_cons, not_or]
      exact ⟨Ne.symm hc, hhead⟩

theorem ofText_text_append {lit : Text} (h : '?' ∉ lit) (t : Text) :
    Piece.ofText (lit ++ t) = lit.map .char ++ Piece.ofText t := by
  induction lit with
  | nil => rfl
  | cons c lit ih =>
    rw [List.mem_cons, not_or] at h
    rw [List.cons_append, ofText_cons, Piece.push, if_neg (Ne.symm h.1), ih h.2]
    rfl

/-- A marker is read as such unless the text behind it gives it another type code. -/
theorem ofText_marker_append {m : Marker} {t : Text}
    (h : m = .generic → ∀ c ∈ t.head?, c ∉ ['d', 'f', 'a', '#']) :
    Piece.ofText (m.text ++ t) = .marker m :: Piece.ofText t := by
  cases m with
  | generic =>
    have hnone : Piece.typeCode? (Piece.ofText t) = none := by
      cases t with
      | nil => rfl
      | cons c s =>
        have hc : Marker.ofChar? c = none := Marker.ofChar?_eq_none_iff.2 (h rfl c rfl)
        rw [ofText_cons, Piece.push]
        split
        · split <;> rfl
        · rw [Piece.typeCode?, hc]
          rfl
    have htext : Marker.generic.text ++ t = '?' :: t := rfl
    rw [htext, ofText_cons, Piece.push, if_pos rfl, hnone]
  | integer => rfl
  | float => rfl
  | array => rfl
  | identifier => rfl

theorem ofText_tailPieces {tail : List (Marker × Text)} (hmark : ∀ entry ∈ tail, '?' ∉ entry.2)
    (hgreedy : ∀ entry ∈ tail, entry.1 = .generic →
      ∀ c ∈ entry.2.head?, c ∉ ['d', 'f', 'a', '#']) :
    Piece.ofText ((tailPieces tail).flatMap Piece.text) = tailPieces tail := by
  induction tail with
  | nil => rfl
  | cons entry rest ih =>
    obtain ⟨m, lit⟩ := entry
    obtain ⟨hlit, hmark⟩ := List.forall_mem_cons.1 hmark
    obtain ⟨hcode, hgreedy⟩ := List.forall_mem_cons.1 hgreedy
    have htext : (tailPieces ((m, lit) :: rest)).flatMap Piece.text =
        m.text ++ (lit ++ (tailPieces rest).flatMap Piece.text) := by
      rw [tailPieces_cons, List.flatMap_append, List.flatMap_append, flatMap_text_chars]
      simp [Piece.text]
    rw [htext, ofText_marker_append, ofText_text_append hlit, ih hmark hgreedy]
    · rfl
    · -- behind an empty text the next marker begins with a question mark
      intro hm c hc
      cases lit with
      | cons d lit => exact hcode hm c hc
      | nil =>
        cases rest with
        | nil => cases hc
        | cons entry rest =>
          obtain rfl : '?' = c := Option.some.inj hc
          decide

/-- **A template has one layout**: its pieces are those of any of its layouts. -/
theorem Of.pieces_ofText {l : Layout} {template : Text} (h : l.Of template) :
    Piece.ofText template = l.pieces := by
  have htext : template = l.head ++ (tailPieces l.tail).flatMap Piece.text := by
    rw [flatMap_text_tailPieces]
    exact h.spells.symm
  rw [htext, ofText_text_append h.head_no_mark, ofText_tailPieces h.no_mark h.greedy]
  rfl

theorem markerCount_chars_append (lit : Text) (ps : List Piece) :
    Piece.markerCount (lit.map .char ++ ps) = Piece.markerCount ps := by
  induction lit with
  | nil => rfl
  | cons c lit ih => rw [List.map_cons, List.cons_append, Piece.markerCount_char, ih]

theorem markerCount_tailPieces (tail : List (Marker × Text)) :
    Piece.markerCount (tailPieces tail) = tail.length := by
  induction tail with
  | nil => rfl
  | cons entry rest ih =>
    rw [tailPieces_cons, List.singleton_append, Piece.markerCount_marker,
      markerCount_chars_append, ih, List.length_cons]

theorem Of.length_markers {l : Layout} {template : Text} (h : l.Of template) :
    l.markers.length = template.count '?' := by
  rw [← Piece.markerCount_ofText, h.pieces_ofText, pieces, markerCount_chars_append,
    markerCount_tailPieces, markers, List.length_map]

end Layout

/-! ## The first pass over pieces -/

namespace Context

variable (ctx : Context) (arguments : List Argument)

def substitutePieces (ps : List Piece) : Scan Text := do return (← ps.mapM ctx.fill).flatten

theorem substitutePieces_append (xs ys : List Piece) :
    ctx.substitutePieces (xs ++ ys) = do
      let t ← ctx.substitutePieces xs
      let t' ← ctx.substitutePieces ys
      return t ++ t' := by
  simp [substitutePieces, List.mapM_append]

theorem substitutePieces_ok {xs ys : List Piece} {c c' : Cursor} {t : Text}
    (h : ctx.substitutePieces xs c = .ok t c') :
    ctx.substitutePieces (xs ++ ys) c =
      match ctx.substitutePieces ys c' with
      | .ok t' c'' => .ok (t ++ t') c''
      | .error e c'' => .error e c'' := by
  rw [substitutePieces_append, scan_bind, h]
  simp only
  rw [scan_bind]
  cases ctx.substitutePieces ys c' <;> rfl

theorem substitutePieces_error {xs ys : List Piece} {c c' : Cursor} {e : BuildError}
    (h : ctx.substitutePieces xs c = .error e c') :
    ctx.substitutePieces (xs ++ ys) c = .error e c' := by
  rw [substitutePieces_append, scan_bind, h]

theorem substitutePieces_singleton (p : Piece) (c : Cursor) :
    ctx.substitutePieces [p] c = ctx.fill p c := by
  rw [substitutePieces, scan_bind, mapM_fill_cons]
  cases ctx.fill p c with
  | ok t c' => simp [pure, EStateM.pure]
  | error e c' => rfl

theorem substitutePieces_chars (lit : Text) (c : Cursor) :
    ctx.substitutePieces (lit.map .char) c = .ok lit c := by
  induction lit with
  | nil => rfl
  | cons d lit ih =>
    have hd : ctx.substitutePieces [.char d] c = .ok [d] c := substitutePieces_singleton ctx _ c
    have hcut : (d :: lit).map Piece.char = [.char d] ++ lit.map .char := rfl
    rw [hcut, substitutePieces_ok ctx hd, ih]
    rfl

variable {ctx arguments}

/-- The arguments from the one at `p` on are there for the markers, and are rendered as `texts`. -/
def Rendered (ctx : Context) (arguments : List Argument) (p : Nat) (ms : List Marker)
    (texts : List Text) : Prop :=
  ∀ i m, ms[i]? = some m → ∃ a t, arguments[p + i]? = some a ∧
    ctx.renderArgument m a = .ok t ∧ texts[i]? = some t

theorem substitutePieces_marker {m : Marker} {a : Argument} {t : Text} {p : Nat}
    (ha : arguments[p]? = some a) (ht : ctx.renderArgument m a = .ok t) :
    ctx.substitutePieces [.marker m] ⟨arguments, p⟩ = .ok t ⟨arguments, (p + 1 : Nat)⟩ := by
  rw [substitutePieces_singleton, fill_marker, ha]
  simp only [ht]
  rfl

theorem rendered_cons_iff {p : Nat} {m : Marker} {ms : List Marker} {t : Text}
    {texts : List Text} : ctx.Rendered arguments p (m :: ms) (t :: texts) ↔
      (∃ a, arguments[p]? = some a ∧ ctx.renderArgument m a = .ok t) ∧
        ctx.Rendered arguments (p + 1) ms texts := by
  have hindex : ∀ i, p + (i + 1) = p + 1 + i := fun i => by omega
  constructor
  · intro h
    obtain ⟨a, t', ha, ht, htexts⟩ := h 0 m rfl
    obtain rfl : t = t' := Option.some.inj htexts
    refine ⟨⟨a, ha, ht⟩, fun i m' hm => ?_⟩
    rw [← hindex]
    exact h (i + 1) m' hm
  · rintro ⟨⟨a, ha, ht⟩, h⟩ i m' hm
    cases i with
    | zero =>
      obtain rfl := Option.some.inj hm
      exact ⟨a, t, ha, ht, rfl⟩
    | succ i =>
      rw [hindex]
      exact h i m' hm

theorem substitutePieces_tailPieces {tail : List (Marker × Text)} {texts : List Text} {p : Nat}
    (h : ctx.Rendered arguments p (tail.map Prod.fst) texts) :
    ctx.substitutePieces (Layout.tailPieces tail) ⟨arguments, p⟩ =
      .ok (List.zipWith (fun t entry => t ++ entry.2) texts tail).flatten
        ⟨arguments, (p + tail.length : Nat)⟩ := by
  induction tail generalizing p texts with
  | nil => simp [Layout.tailPieces, substitutePieces, scan_bind, pure, EStateM.pure]
  | cons entry rest ih =>
    cases texts with
    | nil =>
      obtain ⟨_, _, _, _, htext⟩ := h 0 entry.1 rfl
      cases htext
    | cons t texts =>
      obtain ⟨⟨a, ha, ht⟩, hrest⟩ := rendered_cons_iff.1 h
      have hlength : p + 1 + rest.length = p + (entry :: rest).length := by
        rw [List.length_cons]
        omega
      rw [Layout.tailPieces_cons, substitutePieces_ok ctx (substitutePieces_marker ha ht),
        substitutePieces_ok ctx (substitutePieces_chars ctx entry.2 _), ih hrest, hlength]
      simp

theorem substitutePieces_pieces {l : Layout} {texts : List Text} {p : Nat}
    (h : ctx.Rendered arguments p l.markers texts) :
    ctx.substitutePieces l.pieces ⟨arguments, p⟩ =
      .ok (l.fill texts) ⟨arguments, (p + l.markers.length : Nat)⟩ := by
  rw [Layout.pieces, substitutePieces_ok ctx (substitutePieces_chars ctx l.head _),
    substitutePieces_tailPieces h, Layout.markers, List.length_map]
  rfl

theorem substitutePieces_stop {l : Layout} {j p : Nat} {m : Marker} {texts : List Text}
    {e : BuildError} {c : Cursor} (hm : l.markers[j]? = some m)
    (h : ctx.Rendered arguments p (l.markers.take j) texts)
    (hstop : ctx.fill (.marker m) ⟨arguments, (p + j : Nat)⟩ = .error e c) :
    ctx.substitutePieces l.pieces ⟨arguments, p⟩ = .error e c := by
  obtain ⟨entry, hentry, rfl⟩ : ∃ entry, l.tail[j]? = some entry ∧ entry.1 = m := by
    simpa [Layout.markers] using hm
  obtain ⟨hj, rfl⟩ := List.getElem?_eq_some_iff.1 hentry
  -- the layout up to the marker is a layout of its own
  have hfront := substitutePieces_pieces (l := ⟨l.head, l.tail.take j⟩) (p := p)
    (by rwa [Layout.markers, List.map_take])
  have hlength : (Layout.mk l.head (l.tail.take j)).markers.length = j := by
    rw [Layout.markers, List.length_map, List.length_take, Nat.min_eq_left (Nat.le_of_lt hj)]
  have hsplit : l.pieces = Layout.pieces ⟨l.head, l.tail.take j⟩ ++ ([.marker l.tail[j].1] ++
      (l.tail[j].2.map .char ++ Layout.tailPieces (l.tail.drop (j + 1)))) := by
    rw [← Layout.tailPieces_cons, ← List.drop_eq_getElem_cons hj, Layout.pieces, Layout.pieces,
      List.append_assoc, ← Layout.tailPieces_append, List.take_append_drop]
  rw [hlength] at hfront
  rw [hsplit, substitutePieces_ok ctx hfront,
    substitutePieces_error ctx ((substitutePieces_singleton ctx _ _).trans hstop)]

variable (ctx arguments) in
theorem exists_rendered_or_stop (ms : List Marker) (p : Nat) :
    (∃ texts, ctx.Rendered arguments p ms texts) ∨
      ∃ j m texts, ms[j]? = some m ∧ ctx.Rendered arguments p (ms.take j) texts ∧
        ∀ a, arguments[p + j]? = some a → ∃ e, ctx.renderArgument m a = .error e := by
  induction ms generalizing p with
  | nil => exact .inl ⟨[], fun i m hm => by cases hm⟩
  | cons m ms ih =>
    by_cases hm : ∃ a t, arguments[p]? = some a ∧ ctx.renderArgument m a = .ok t
    · obtain ⟨a, t, ha, ht⟩ := hm
      rcases ih (p + 1) with ⟨texts, h⟩ | ⟨j, m', texts, hj, h, hstop⟩
      · exact .inl ⟨t :: texts, rendered_cons_iff.2 ⟨⟨a, ha, ht⟩, h⟩⟩
      · refine .inr ⟨j + 1, m', t :: texts, hj, rendered_cons_iff.2 ⟨⟨a, ha, ht⟩, h⟩, ?_⟩
        rwa [Nat.add_right_comm] at hstop
    · refine .inr ⟨0, m, [], rfl, fun i m hm => by simp at hm, fun a ha => ?_⟩
      cases hr : ctx.renderArgument m a with
      | ok t => exact absurd ⟨a, t, ha, hr⟩ hm
      | error e => exact ⟨e, rfl⟩

end Context

end QueryTemplate
