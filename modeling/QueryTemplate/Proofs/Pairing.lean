import QueryTemplate.Template.Fragment

/-!
# How braces pair up

A fragment is a pair of consecutive braces, the first opening and the second closing. This module
says it of whole sequences: `Segment.ofList` splits where no pair crosses the cut
(`ofList_append`), a pair that crosses the cut is one fragment (`ofList_append_of_crossing`), and
replacing elements by sequences without new braces replaces them inside the fragments
(`ofList_flatMap`). All of it follows from one induction over the ways in which a sequence can
begin (`pairing_induction`).
-/

namespace QueryTemplate

namespace Segment

variable {α β : Type} (brace : α → Option Brace)

def braces (xs : List α) : List Brace := xs.filterMap brace

/-- The last brace of a sequence opens, so it may have its partner behind the sequence. -/
def EndsOpen (xs : List α) : Prop := (braces brace xs).getLast? = some .opening

/-- The first brace of a sequence closes, so it may have its partner before the sequence. -/
def StartsClosed (xs : List α) : Prop := (braces brace xs).head? = some .closing

def Braceless (xs : List α) : Prop := ∀ a ∈ xs, brace a = none

variable {brace}

/-! ## Braces of a sequence -/

theorem braces_cons_none {a : α} (h : brace a = none) (xs : List α) :
    braces brace (a :: xs) = braces brace xs := List.filterMap_cons_none h

theorem braces_cons_some {a : α} {b : Brace} (h : brace a = some b) (xs : List α) :
    braces brace (a :: xs) = b :: braces brace xs := List.filterMap_cons_some h

theorem braces_append (xs ys : List α) :
    braces brace (xs ++ ys) = braces brace xs ++ braces brace ys := List.filterMap_append

theorem braces_eq_nil_iff {xs : List α} : braces brace xs = [] ↔ Braceless brace xs :=
  List.filterMap_eq_nil_iff

theorem Braceless.append {xs ys : List α} (hx : Braceless brace xs) (hy : Braceless brace ys) :
    Braceless brace (xs ++ ys) := by
  intro a ha
  rcases List.mem_append.1 ha with h | h
  · exact hx a h
  · exact hy a h

theorem exists_of_startsClosed {xs : List α} (h : StartsClosed brace xs) :
    ∃ b c y, xs = b ++ c :: y ∧ Braceless brace b ∧ brace c = some .closing := by
  obtain ⟨rest, hrest⟩ : ∃ rest, braces brace xs = .closing :: rest := by
    obtain ⟨_, h⟩ := List.head?_eq_some_iff.1 h
    exact ⟨_, h⟩
  obtain ⟨b, c, y, rfl, hb, hc, -⟩ := List.filterMap_eq_cons_iff.1 hrest
  exact ⟨b, c, y, rfl, hb, hc⟩

theorem exists_of_endsOpen {xs : List α} (h : EndsOpen brace xs) :
    ∃ x o a, xs = x ++ o :: a ∧ brace o = some .opening ∧ Braceless brace a := by
  obtain ⟨front, hfront⟩ := List.getLast?_eq_some_iff.1 h
  obtain ⟨x, tail, rfl, -, htail⟩ := List.filterMap_eq_append_iff.1 hfront
  obtain ⟨b, o, a, rfl, hb, ho, ha⟩ := List.filterMap_eq_cons_iff.1 htail
  exact ⟨x ++ b, o, a, by simp, ho, List.filterMap_eq_nil_iff.1 ha⟩

theorem startsClosed_of_pair {b y : List α} {c : α} (hb : Braceless brace b)
    (hc : brace c = some .closing) : StartsClosed brace (b ++ c :: y) := by
  rw [StartsClosed, braces_append, braces_eq_nil_iff.2 hb, braces_cons_some hc]
  rfl

theorem endsOpen_of_pair {x a : List α} {o : α} (ho : brace o = some .opening)
    (ha : Braceless brace a) : EndsOpen brace (x ++ o :: a) := by
  rw [EndsOpen, braces_append, braces_cons_some ho, braces_eq_nil_iff.2 ha]
  simp

theorem Braceless.eq_of_last_brace {x x' a a' : List α} {o o' : α} {k k' : Brace}
    (h : x ++ o :: a = x' ++ o' :: a') (ho : brace o = some k) (ho' : brace o' = some k')
    (ha : Braceless brace a) (ha' : Braceless brace a') : a = a' := by
  rcases List.append_eq_append_iff.1 h with ⟨w, -, hw⟩ | ⟨w, -, hw⟩
  · cases w with
    | nil => exact (List.cons.inj hw).2
    | cons d w =>
      have hmem : o' ∈ a := by simp [(List.cons.inj hw).2]
      exact absurd (ha o' hmem) (by simp [ho'])
  · cases w with
    | nil => exact (List.cons.inj hw).2.symm
    | cons d w =>
      have hmem : o ∈ a' := by simp [(List.cons.inj hw).2]
      exact absurd (ha' o hmem) (by simp [ho])

theorem Braceless.eq_of_first_brace {b b' y y' : List α} {c c' : α} {k k' : Brace}
    (h : b ++ c :: y = b' ++ c' :: y') (hc : brace c = some k) (hc' : brace c' = some k')
    (hb : Braceless brace b) (hb' : Braceless brace b') : b = b' := by
  have hrev : y.reverse ++ c :: b.reverse = y'.reverse ++ c' :: b'.reverse := by
    simpa using congrArg List.reverse h
  have hunique := eq_of_last_brace hrev hc hc' (fun a ha => hb a (List.mem_reverse.1 ha))
    fun a ha => hb' a (List.mem_reverse.1 ha)
  exact List.reverse_inj.1 hunique

theorem not_startsClosed_cons {o : α} (ho : brace o = some .opening) (xs : List α) :
    ¬StartsClosed brace (o :: xs) := by
  rw [StartsClosed, braces_cons_some ho]
  simp

theorem not_endsOpen_concat {c : α} (hc : brace c = some .closing) (xs : List α) :
    ¬EndsOpen brace (xs ++ [c]) := by
  rw [EndsOpen, braces_append, braces_cons_some hc]
  simp [braces]

theorem Braceless.not_startsClosed {xs : List α} (h : Braceless brace xs) :
    ¬StartsClosed brace xs := by
  rw [StartsClosed, braces_eq_nil_iff.2 h]
  simp

theorem Braceless.not_endsOpen {xs : List α} (h : Braceless brace xs) : ¬EndsOpen brace xs := by
  rw [EndsOpen, braces_eq_nil_iff.2 h]
  simp

theorem EndsOpen.cons {xs : List α} (h : EndsOpen brace xs) (a : α) : EndsOpen brace (a :: xs) := by
  obtain ⟨x, o, y, rfl, ho, hy⟩ := exists_of_endsOpen h
  exact endsOpen_of_pair (x := a :: x) ho hy

theorem EndsOpen.append_left {xs : List α} (h : EndsOpen brace xs) (ys : List α) :
    EndsOpen brace (ys ++ xs) := by
  obtain ⟨x, o, y, rfl, ho, hy⟩ := exists_of_endsOpen h
  rw [← List.append_assoc]
  exact endsOpen_of_pair ho hy

/-! ## How a sequence splits at its front -/

@[simp] theorem ofList_nil : ofList brace [] = [] := rfl

theorem inside?_map_plain {b : List α} (hb : Braceless brace b) (segments : List (Segment α)) :
    inside? brace (b.map plain ++ segments) =
      (inside? brace segments).map fun (inner, rest) => (b ++ inner, rest) := by
  induction b with
  | nil => simp
  | cons a b ih =>
    have ha := hb a List.mem_cons_self
    have ih := ih fun x hx => hb x (List.mem_cons_of_mem _ hx)
    simp only [List.map_cons, List.cons_append, inside?, ha, ih, Option.map_map]
    rfl

theorem ofList_cons_of_ne_opening {a : α} (h : brace a ≠ some .opening) (xs : List α) :
    ofList brace (a :: xs) = plain a :: ofList brace xs := by
  rw [ofList, List.foldr_cons, push]
  split
  · exact absurd ‹_› h
  · rfl

theorem ofList_braceless_append {b : List α} (hb : Braceless brace b) (xs : List α) :
    ofList brace (b ++ xs) = b.map plain ++ ofList brace xs := by
  induction b with
  | nil => rfl
  | cons a b ih =>
    have ha : brace a ≠ some .opening := by simp [hb a List.mem_cons_self]
    have ih := ih fun x hx => hb x (List.mem_cons_of_mem _ hx)
    rw [List.cons_append, ofList_cons_of_ne_opening ha, ih]
    rfl

theorem ofList_braceless {b : List α} (hb : Braceless brace b) :
    ofList brace b = b.map plain := by
  simpa using ofList_braceless_append hb []

theorem inside?_pair {b y : List α} {c : α} (hb : Braceless brace b)
    (hc : brace c = some .closing) :
    inside? brace (ofList brace (b ++ c :: y)) = some (b, ofList brace y) := by
  rw [ofList_braceless_append hb, ofList_cons_of_ne_opening (by simp [hc]), inside?_map_plain hb]
  simp [inside?, hc]

theorem ofList_pair {o c : α} {b : List α} (ho : brace o = some .opening)
    (hb : Braceless brace b) (hc : brace c = some .closing) (y : List α) :
    ofList brace (o :: (b ++ c :: y)) = fragment b :: ofList brace y := by
  rw [ofList, List.foldr_cons, push, ho, ← ofList, inside?_pair hb hc]

theorem inside?_eq_none {xs : List α} (h : ¬StartsClosed brace xs) :
    inside? brace (ofList brace xs) = none := by
  induction xs with
  | nil => rfl
  | cons a xs ih =>
    cases ha : brace a with
    | none =>
      have hx : ¬StartsClosed brace xs := by rwa [StartsClosed, ← braces_cons_none ha]
      rw [ofList_cons_of_ne_opening (by simp [ha]), inside?, ha, ih hx]
      rfl
    | some b =>
      cases b with
      | closing => exact absurd (by simp [StartsClosed, braces_cons_some ha]) h
      | opening =>
        rw [ofList, List.foldr_cons, push, ha]
        simp only
        split
        · rfl
        · simp [inside?, ha]

theorem ofList_unpaired {o : α} {xs : List α} (ho : brace o = some .opening)
    (h : ¬StartsClosed brace xs) : ofList brace (o :: xs) = plain o :: ofList brace xs := by
  rw [ofList, List.foldr_cons, push, ho, ← ofList, inside?_eq_none h]

variable (brace) in
/-- **The ways in which a sequence can begin.** It is empty, or it begins with an element that
opens nothing, with an opening brace that has no partner, or with a whole fragment. -/
theorem pairing_induction {motive : List α → Prop} (nil : motive [])
    (element : ∀ a xs, brace a ≠ some .opening → motive xs → motive (a :: xs))
    (unpaired : ∀ o xs, brace o = some .opening → ¬StartsClosed brace xs → motive xs →
      motive (o :: xs))
    (pair : ∀ o b c y, brace o = some .opening → Braceless brace b → brace c = some .closing →
      motive y → motive (o :: (b ++ c :: y)))
    (xs : List α) : motive xs := by
  -- a fragment is longer than one element, so the induction is on the length
  suffices h : ∀ n xs, xs.length ≤ n → motive xs from h xs.length xs (Nat.le_refl _)
  intro n
  induction n with
  | zero =>
    intro xs hn
    have hx : xs = [] := List.eq_nil_of_length_eq_zero (by omega)
    rw [hx]
    exact nil
  | succ n ih =>
    intro xs hn
    match xs with
    | [] => exact nil
    | a :: xs =>
      have hxs : xs.length ≤ n := by simpa using hn
      by_cases ha : brace a = some .opening
      · by_cases hx : StartsClosed brace xs
        · obtain ⟨b, c, y, rfl, hb, hc⟩ := exists_of_startsClosed hx
          refine pair a b c y ha hb hc (ih y ?_)
          simp only [List.length_append, List.length_cons] at hxs
          omega
        · exact unpaired a xs ha hx (ih xs hxs)
      · exact element a xs ha (ih xs hxs)

/-! ## Cuts -/

theorem startsClosed_append_iff {xs ys : List α} : StartsClosed brace (xs ++ ys) ↔
    StartsClosed brace xs ∨ Braceless brace xs ∧ StartsClosed brace ys := by
  unfold StartsClosed
  rw [← braces_eq_nil_iff, braces_append]
  cases braces brace xs <;> simp

theorem endsOpen_append_iff {xs ys : List α} : EndsOpen brace (xs ++ ys) ↔
    EndsOpen brace ys ∨ Braceless brace ys ∧ EndsOpen brace xs := by
  unfold EndsOpen
  rw [← braces_eq_nil_iff, braces_append, List.getLast?_append]
  cases h : (braces brace ys).getLast? with
  | none => simp [List.getLast?_eq_none_iff.1 h]
  | some b =>
    have hne : braces brace ys ≠ [] := by
      intro h'
      simp [h'] at h
    simp [hne]

/-- No fragment crosses a cut unless the brace before it opens and the brace behind it closes. -/
theorem ofList_append {xs ys : List α} (h : ¬(EndsOpen brace xs ∧ StartsClosed brace ys)) :
    ofList brace (xs ++ ys) = ofList brace xs ++ ofList brace ys := by
  induction xs using pairing_induction brace with
  | nil => rfl
  | element a xs ha ih =>
    rw [List.cons_append, ofList_cons_of_ne_opening ha, ofList_cons_of_ne_opening ha,
      ih fun h' => h ⟨h'.1.cons a, h'.2⟩]
    rfl
  | unpaired o xs ho hx ih =>
    have hxy : ¬StartsClosed brace (xs ++ ys) := by
      rw [startsClosed_append_iff]
      rintro (h' | ⟨hb, h'⟩)
      · exact hx h'
      · exact h ⟨endsOpen_of_pair (x := []) ho hb, h'⟩
    rw [List.cons_append, ofList_unpaired ho hxy, ofList_unpaired ho hx,
      ih fun h' => h ⟨h'.1.cons o, h'.2⟩]
    rfl
  | pair o b c y ho hb hc ih =>
    have ih := ih fun h' => h ⟨(h'.1.cons c).append_left (o :: b), h'.2⟩
    have hcut : o :: (b ++ c :: y) ++ ys = o :: (b ++ c :: (y ++ ys)) := by simp
    rw [hcut, ofList_pair ho hb hc, ofList_pair ho hb hc, ih]
    rfl

theorem ofList_append_of_crossing {x a b y : List α} {o c : α} (ho : brace o = some .opening)
    (ha : Braceless brace a) (hb : Braceless brace b) (hc : brace c = some .closing) :
    ofList brace ((x ++ o :: a) ++ (b ++ c :: y)) =
      ofList brace x ++ fragment (a ++ b) :: ofList brace y := by
  have hcut : (x ++ o :: a) ++ (b ++ c :: y) = x ++ o :: ((a ++ b) ++ c :: y) := by simp
  rw [hcut, ofList_append fun h => not_startsClosed_cons ho _ h.2, ofList_pair ho (ha.append hb) hc]

/-! ## Replacing elements -/

/-- The segments that a segment becomes when its elements are replaced by sequences. -/
def expand (f : α → List β) : Segment α → List (Segment β)
  | plain a => (f a).map plain
  | fragment inner => [fragment (inner.flatMap f)]

/-- `f` turns a brace into that brace, and any other element into a sequence without braces. -/
def Faithful (brace : α → Option Brace) (brace' : β → Option Brace) (f : α → List β) (a : α) :
    Prop :=
  match brace a with
  | some b => ∃ c, f a = [c] ∧ brace' c = some b
  | none => Braceless brace' (f a)

variable {brace' : β → Option Brace} {f : α → List β}

theorem Faithful.of_none {a : α} (h : Faithful brace brace' f a) (ha : brace a = none) :
    Braceless brace' (f a) := by
  rwa [Faithful, ha] at h

theorem Faithful.of_some {a : α} {b : Brace} (h : Faithful brace brace' f a)
    (ha : brace a = some b) : ∃ c, f a = [c] ∧ brace' c = some b := by
  rwa [Faithful, ha] at h

theorem Braceless.flatMap {xs : List α} (hx : Braceless brace xs)
    (hf : ∀ a ∈ xs, Faithful brace brace' f a) : Braceless brace' (xs.flatMap f) := by
  intro c hc
  obtain ⟨a, ha, hca⟩ := List.mem_flatMap.1 hc
  exact (hf a ha).of_none (hx a ha) c hca

theorem braces_flatMap {xs : List α} (hf : ∀ a ∈ xs, Faithful brace brace' f a) :
    braces brace' (xs.flatMap f) = braces brace xs := by
  induction xs with
  | nil => rfl
  | cons a xs ih =>
    have ih := ih fun x hx => hf x (List.mem_cons_of_mem _ hx)
    have ha := hf a List.mem_cons_self
    rw [List.flatMap_cons, braces_append, ih]
    cases hb : brace a with
    | none => rw [braces_eq_nil_iff.2 (ha.of_none hb), braces_cons_none hb, List.nil_append]
    | some b =>
      obtain ⟨c, hc, hbc⟩ := ha.of_some hb
      rw [hc, braces_cons_some hb, braces_cons_some hbc]
      rfl

/-- **Fragments do not see what has no braces.** Replacing elements faithfully replaces them inside
and outside the fragments, and makes no other fragment. -/
theorem ofList_flatMap {xs : List α} (hf : ∀ a ∈ xs, Faithful brace brace' f a) :
    ofList brace' (xs.flatMap f) = (ofList brace xs).flatMap (expand f) := by
  induction xs using pairing_induction brace with
  | nil => rfl
  | element a xs ha ih =>
    have ih := ih fun x hx => hf x (List.mem_cons_of_mem _ hx)
    have hfa := hf a List.mem_cons_self
    rw [List.flatMap_cons, ofList_cons_of_ne_opening ha, List.flatMap_cons, expand, ← ih]
    cases hb : brace a with
    | none => rw [ofList_braceless_append (hfa.of_none hb)]
    | some b =>
      obtain ⟨c, hc, hbc⟩ := hfa.of_some hb
      have hne : brace' c ≠ some .opening := by rwa [hbc, ← hb]
      rw [hc, List.singleton_append, ofList_cons_of_ne_opening hne]
      rfl
  | unpaired o xs ho hx ih =>
    have hxs := fun x hx => hf x (List.mem_cons_of_mem _ hx)
    obtain ⟨o', ho', hbo⟩ := (hf o List.mem_cons_self).of_some ho
    have hx' : ¬StartsClosed brace' (xs.flatMap f) := by rwa [StartsClosed, braces_flatMap hxs]
    rw [List.flatMap_cons, ho', List.singleton_append, ofList_unpaired hbo hx',
      ofList_unpaired ho hx, List.flatMap_cons, expand, ho', ih hxs]
    rfl
  | pair o b c y ho hb hc ih =>
    have ih := ih fun x hx => hf x (by simp [hx])
    obtain ⟨o', ho', hbo⟩ := (hf o (by simp)).of_some ho
    obtain ⟨c', hc', hbc⟩ := (hf c (by simp)).of_some hc
    have hb' := hb.flatMap fun x hx => hf x (by simp [hx])
    rw [List.flatMap_cons, List.flatMap_append, List.flatMap_cons, ho', hc',
      List.singleton_append, List.singleton_append, ofList_pair hbo hb' hbc, ofList_pair ho hb hc,
      ih]
    rfl

/-! ## Dropping fragments -/

def content : Segment α → List α
  | plain a => [a]
  | fragment inner => inner

/-- What is left of a segment when a fragment goes as a whole if it has an element to drop. -/
def survivors (drop : α → Bool) : Segment α → List α
  | plain a => [a]
  | fragment inner => if inner.any drop then [] else inner

theorem content_ofList_sublist (xs : List α) :
    ((ofList brace xs).flatMap content).Sublist xs := by
  induction xs using pairing_induction brace with
  | nil => simp
  | element a xs ha ih =>
    rw [ofList_cons_of_ne_opening ha, List.flatMap_cons]
    exact ih.cons_cons a
  | unpaired o xs ho hx ih =>
    rw [ofList_unpaired ho hx, List.flatMap_cons]
    exact ih.cons_cons o
  | pair o b c y ho hb hc ih =>
    rw [ofList_pair ho hb hc, List.flatMap_cons]
    exact ((List.Sublist.refl b).append (ih.cons c)).cons o

theorem mem_of_mem_content {xs : List α} {s : Segment α} (hs : s ∈ ofList brace xs) {a : α}
    (ha : a ∈ s.content) : a ∈ xs :=
  (content_ofList_sublist xs).subset (List.mem_flatMap.2 ⟨s, hs, ha⟩)

theorem mem_of_mem_survivors {drop : α → Bool} {xs : List α} {a : α}
    (h : a ∈ (ofList brace xs).flatMap (survivors drop)) : a ∈ xs := by
  obtain ⟨s, hs, ha⟩ := List.mem_flatMap.1 h
  refine mem_of_mem_content hs ?_
  cases s with
  | plain b => exact ha
  | fragment inner =>
    rw [survivors] at ha
    split at ha
    · simp at ha
    · exact ha

theorem survivors_expand {f : α → List β} {drop : α → Bool} {drop' : β → Bool} {s : Segment α}
    (h : ∀ a ∈ s.content, (f a).any drop' = drop a) :
    (expand f s).flatMap (survivors drop') = (survivors drop s).flatMap f := by
  cases s with
  | plain a => simp [expand, survivors, List.flatMap_map]
  | fragment inner =>
    have hany : (inner.flatMap f).any drop' = inner.any drop := by
      rw [List.any_flatMap, Bool.eq_iff_iff, List.any_eq_true, List.any_eq_true]
      constructor
      · rintro ⟨a, ha, hd⟩
        exact ⟨a, ha, by rwa [← h a ha]⟩
      · rintro ⟨a, ha, hd⟩
        exact ⟨a, ha, by rwa [h a ha]⟩
    simp only [expand, survivors, List.flatMap_cons, List.flatMap_nil, List.append_nil, hany]
    split <;> rfl

end Segment

end QueryTemplate
