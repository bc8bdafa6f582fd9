import Mathlib.Algebra.GroupWithZero.Nat
import Mathlib.Data.List.Infix
import Mathlib.Data.List.Nodup
import Mathlib.Data.List.ProdSigma
import QueryTemplate.Proofs.Escaping
import QueryTemplate.Proofs.Replaced

/-!
# What the second pass does, place by place

The places of a text decide what the second pass leaves: an opening and a closing brace with no
brace between them are a pair (`Text.IsPair`), the two braces of every pair go, what a pair with
the skip marker encloses goes too, and every other character stays (`Text.Stays`). The tally counts
the pairs, and in the text that is left the skip literal takes the places of the skip markers from
left to right (`Text.Replaced`). All this is said without the splitting into fragments, and
`collapse_places` says that the second pass does it.
-/

namespace QueryTemplate

theorem Brace.ofChar?_eq_none_iff {c : Char} : ofChar? c = none ↔ c ≠ '{' ∧ c ≠ '}' := by
  unfold ofChar?
  split
  · simp [*]
  · split <;> simp [*]

namespace Text

/-! ## Pairs of braces -/

/-- The characters at `i` and `j` are an opening and a closing brace with no brace between them. -/
def IsPair (t : Text) (i j : Nat) : Prop :=
  i < j ∧ t[i]? = some '{' ∧ t[j]? = some '}' ∧
    ∀ k < j, i < k → t[k]? ≠ some '{' ∧ t[k]? ≠ some '}'

instance (t : Text) (i j : Nat) : Decidable (IsPair t i j) :=
  inferInstanceAs (Decidable (_ ∧ _ ∧ _ ∧ _))

def pairs (t : Text) : List (Nat × Nat) :=
  (List.range t.length ×ˢ List.range t.length).filter fun pair => IsPair t pair.1 pair.2

def enclosed (t : Text) (pair : Nat × Nat) : Text := (t.take pair.2).drop (pair.1 + 1)

/-- The character at `k` is no brace of the pair, and the pair does not enclose it together with the
marker. -/
def Spares (marker t : Text) (k : Nat) (pair : Nat × Nat) : Prop :=
  k ≠ pair.1 ∧ k ≠ pair.2 ∧ ¬(pair.1 < k ∧ k < pair.2 ∧ marker <:+: enclosed t pair)

instance (marker t : Text) (k : Nat) (pair : Nat × Nat) : Decidable (Spares marker t k pair) :=
  inferInstanceAs (Decidable (_ ∧ _ ∧ ¬(_ ∧ _ ∧ _)))

def Stays (marker t : Text) (k : Nat) : Prop := ∀ pair ∈ pairs t, Spares marker t k pair

instance (marker t : Text) (k : Nat) : Decidable (Stays marker t k) :=
  inferInstanceAs (Decidable (∀ pair ∈ pairs t, _))

def keepWhere (p : Nat → Bool) (t : Text) : Text := (t.zipIdx.filter fun c => p c.2).map Prod.fst

/-- The characters of a text that stay. -/
def remainder (marker t : Text) : Text := keepWhere (fun k => Stays marker t k) t

/-! ## Pairs as cuts -/

open Segment

theorem exists_of_getElem? {t : Text} {i : Nat} {c : Char} (h : t[i]? = some c) :
    ∃ x y, t = x ++ c :: y ∧ x.length = i := by
  obtain ⟨hi, rfl⟩ := List.getElem?_eq_some_iff.1 h
  refine ⟨t.take i, t.drop (i + 1), ?_, by simp; omega⟩
  rw [← List.drop_eq_getElem_cons hi, List.take_append_drop]

theorem getElem?_behind (x z : Text) (c : Char) (k : Nat) :
    (x ++ c :: z)[x.length + k + 1]? = z[k]? := by
  rw [List.getElem?_append_right (by omega), Nat.add_assoc, Nat.add_sub_cancel_left]
  rfl

theorem isPair_iff {t : Text} {i j : Nat} : IsPair t i j ↔
    ∃ x b y, t = x ++ '{' :: (b ++ '}' :: y) ∧ Braceless Brace.ofChar? b ∧ x.length = i ∧
      j = i + b.length + 1 := by
  constructor
  · rintro ⟨hij, hi, hj, hbetween⟩
    obtain ⟨x, z, rfl, rfl⟩ := exists_of_getElem? hi
    obtain ⟨k, rfl⟩ := Nat.exists_eq_add_of_lt hij
    rw [getElem?_behind] at hj
    obtain ⟨b, y, rfl, rfl⟩ := exists_of_getElem? hj
    refine ⟨x, b, y, rfl, fun c hc => ?_, rfl, rfl⟩
    obtain ⟨k, hk⟩ := List.mem_iff_getElem?.1 hc
    have hlt : k < b.length := (List.getElem?_eq_some_iff.1 hk).1
    have hk' := hbetween (x.length + k + 1) (by omega) (by omega)
    rw [getElem?_behind, List.getElem?_append_left hlt, hk] at hk'
    rw [Brace.ofChar?_eq_none_iff]
    simpa using hk'
  · rintro ⟨x, b, y, rfl, hb, rfl, rfl⟩
    refine ⟨by omega, by simp, by simp [getElem?_behind], fun k hkj hik => ?_⟩
    obtain ⟨k, rfl⟩ := Nat.exists_eq_add_of_lt hik
    have hlt : k < b.length := by omega
    have hnone := Brace.ofChar?_eq_none_iff.1 (hb b[k] (List.getElem_mem hlt))
    rw [getElem?_behind, List.getElem?_append_left hlt, List.getElem?_eq_getElem hlt]
    simpa using hnone

theorem enclosed_cut (x b y : Text) :
    enclosed (x ++ '{' :: (b ++ '}' :: y)) (x.length, x.length + b.length + 1) = b := by
  have htake : (x ++ '{' :: (b ++ '}' :: y)).take (x.length + b.length + 1) = x ++ '{' :: b := by
    rw [Nat.add_assoc, List.take_length_add_append]
    simp
  rw [enclosed, htake]
  simp

theorem mem_pairs {t : Text} {i j : Nat} : (i, j) ∈ pairs t ↔ IsPair t i j := by
  rw [pairs, List.mem_filter, List.mem_product, List.mem_range, List.mem_range,
    decide_eq_true_eq, and_iff_right_iff_imp]
  rintro ⟨-, hi, hj, -⟩
  exact ⟨(List.getElem?_eq_some_iff.1 hi).1, (List.getElem?_eq_some_iff.1 hj).1⟩

theorem nodup_pairs (t : Text) : (pairs t).Nodup :=
  (List.nodup_range.product List.nodup_range).filter _

/-! ## Pairs of a longer text -/

def shift (d : Nat) (pair : Nat × Nat) : Nat × Nat := (pair.1 + d, pair.2 + d)

theorem shift_injective (d : Nat) : Function.Injective (shift d) := by
  rintro ⟨i, j⟩ ⟨i', j'⟩ h
  obtain ⟨hi, hj⟩ := Prod.mk.inj h
  exact Prod.ext (Nat.add_right_cancel hi) (Nat.add_right_cancel hj)

theorem enclosed_shift (w t : Text) (pair : Nat × Nat) :
    enclosed (w ++ t) (shift w.length pair) = enclosed t pair := by
  have hdrop : pair.1 + w.length + 1 = w.length + (pair.1 + 1) := by omega
  rw [enclosed, shift, hdrop, Nat.add_comm pair.2, List.take_length_add_append,
    List.drop_length_add_append, enclosed]

theorem IsPair.append_left {t : Text} {i j : Nat} (h : IsPair t i j) (w : Text) :
    IsPair (w ++ t) (i + w.length) (j + w.length) := by
  obtain ⟨x, b, y, rfl, hb, rfl, rfl⟩ := isPair_iff.1 h
  refine isPair_iff.2 ⟨w ++ x, b, y, by simp, hb, ?_, ?_⟩
  · rw [List.length_append]
    omega
  · omega

theorem pairs_cons {c : Char} {t : Text} (h : ¬(c = '{' ∧ StartsClosed Brace.ofChar? t)) :
    (pairs (c :: t)).Perm ((pairs t).map (shift 1)) := by
  rw [List.perm_ext_iff_of_nodup (nodup_pairs _) ((nodup_pairs t).map (shift_injective 1))]
  rintro ⟨i, j⟩
  rw [mem_pairs, List.mem_map]
  constructor
  · intro hpair
    obtain ⟨x, b, y, ht, hb, rfl, rfl⟩ := isPair_iff.1 hpair
    cases x with
    | nil =>
      obtain ⟨rfl, rfl⟩ := List.cons.inj ht
      exact absurd ⟨rfl, startsClosed_of_pair hb (by decide)⟩ h
    | cons d x =>
      obtain ⟨-, rfl⟩ := List.cons.inj ht
      refine ⟨(x.length, x.length + b.length + 1),
        mem_pairs.2 (isPair_iff.2 ⟨x, b, y, rfl, hb, rfl, rfl⟩), ?_⟩
      rw [shift, List.length_cons, Prod.mk.injEq]
      omega
  · rintro ⟨⟨i', j'⟩, hpair, heq⟩
    obtain ⟨rfl, rfl⟩ := Prod.mk.inj heq
    exact (mem_pairs.1 hpair).append_left [c]

theorem pairs_pair {b y : Text} (hb : Braceless Brace.ofChar? b) :
    (pairs ('{' :: (b ++ '}' :: y))).Perm
      ((0, b.length + 1) :: (pairs y).map (shift (b.length + 2))) := by
  have hfirst : (0, b.length + 1) ∉ (pairs y).map (shift (b.length + 2)) := by
    rw [List.mem_map]
    rintro ⟨pair, -, heq⟩
    have hzero := (Prod.mk.inj heq).1
    omega
  rw [List.perm_ext_iff_of_nodup (nodup_pairs _) (List.nodup_cons.2
    ⟨hfirst, (nodup_pairs y).map (shift_injective _)⟩)]
  rintro ⟨i, j⟩
  rw [mem_pairs, List.mem_cons, List.mem_map]
  constructor
  · intro hpair
    obtain ⟨x, b', y', ht, hb', rfl, rfl⟩ := isPair_iff.1 hpair
    cases x with
    | nil =>
      left
      have hclosing : Brace.ofChar? '}' = some .closing := rfl
      have hinner := Braceless.eq_of_first_brace (List.cons.inj ht).2 hclosing hclosing hb hb'
      simp [hinner]
    | cons d x =>
      right
      rcases List.append_eq_append_iff.1 (List.cons.inj ht).2 with ⟨w, rfl, hw⟩ | ⟨w, rfl, hw⟩
      · cases w with
        | nil => exact absurd (List.cons.inj hw).1 (by decide)
        | cons e w =>
          obtain ⟨rfl, rfl⟩ := List.cons.inj hw
          refine ⟨(w.length, w.length + b'.length + 1),
            mem_pairs.2 (isPair_iff.2 ⟨w, b', y', rfl, hb', rfl, rfl⟩), ?_⟩
          simp only [shift, List.length_cons, List.length_append, Prod.mk.injEq]
          omega
      · cases w with
        | nil => exact absurd (List.cons.inj hw).1 (by decide)
        | cons e w =>
          obtain ⟨rfl, -⟩ := List.cons.inj hw
          exact absurd (hb '{' (by simp)) (by decide)
  · rintro (heq | ⟨⟨i', j'⟩, hpair, heq⟩)
    · obtain ⟨rfl, rfl⟩ := Prod.mk.inj heq
      exact isPair_iff.2 ⟨[], b, y, rfl, hb, rfl, by simp⟩
    · obtain ⟨rfl, rfl⟩ := Prod.mk.inj heq
      have hcut : '{' :: (b ++ '}' :: y) = ('{' :: (b ++ ['}'])) ++ y := by simp
      have hlength : ('{' :: (b ++ ['}'])).length = b.length + 2 := by simp
      rw [hcut, ← hlength]
      exact (mem_pairs.1 hpair).append_left _

/-! ## What stays -/

section Keep

variable {p q : Nat → Bool} {t : Text}

theorem keepWhere_nil (p : Nat → Bool) : keepWhere p [] = [] := rfl

theorem keepWhere_cons (p : Nat → Bool) (c : Char) (t : Text) :
    keepWhere p (c :: t) = (if p 0 then [c] else []) ++ keepWhere (fun k => p (k + 1)) t := by
  rw [keepWhere, List.zipIdx_cons, List.zipIdx_succ, List.filter_cons, List.filter_map, keepWhere]
  split
  · simp [Function.comp_def, *]
  · simp [Function.comp_def, *]

theorem keepWhere_append (p : Nat → Bool) (w t : Text) :
    keepWhere p (w ++ t) = keepWhere p w ++ keepWhere (fun k => p (k + w.length)) t := by
  induction w generalizing p with
  | nil => rfl
  | cons c w ih =>
    rw [List.cons_append, keepWhere_cons, keepWhere_cons, ih, List.append_assoc, List.length_cons]
    simp only [Nat.add_assoc]

theorem keepWhere_congr (h : ∀ k < t.length, p k = q k) : keepWhere p t = keepWhere q t := by
  induction t generalizing p q with
  | nil => rfl
  | cons c t ih =>
    rw [keepWhere_cons, keepWhere_cons, h 0 (by simp)]
    congr 1
    exact ih fun k hk => h (k + 1) (by simpa using hk)

theorem keepWhere_const (v : Bool) (t : Text) :
    keepWhere (fun _ => v) t = if v then t else [] := by
  cases v <;> simp [keepWhere]

end Keep

section Cuts

variable {marker w y : Text} {front : List (Nat × Nat)}

theorem spares_of_lt {k : Nat} (h : k < w.length) (pair : Nat × Nat) :
    Spares marker (w ++ y) k (shift w.length pair) := by
  unfold Spares shift
  omega

theorem spares_shift {k : Nat} {pair : Nat × Nat} :
    Spares marker (w ++ y) (k + w.length) (shift w.length pair) ↔ Spares marker y k pair := by
  unfold Spares
  rw [enclosed_shift]
  simp [shift]

theorem spares_of_gt {t : Text} {k : Nat} {pair : Nat × Nat} (h : pair.1 < k) (h' : pair.2 < k) :
    Spares marker t k pair := by
  unfold Spares
  omega

/-- If no pair crosses a cut, the remainder is that of the two parts. -/
theorem remainder_append (hpairs : (pairs (w ++ y)).Perm (front ++ (pairs y).map (shift w.length)))
    (hfront : ∀ pair ∈ front, pair.1 < w.length ∧ pair.2 < w.length) :
    remainder marker (w ++ y) =
      keepWhere (fun k => ∀ pair ∈ front, Spares marker (w ++ y) k pair) w ++
        remainder marker y := by
  have hbefore : ∀ k < w.length, Stays marker (w ++ y) k ↔
      ∀ pair ∈ front, Spares marker (w ++ y) k pair := by
    intro k hk
    simp only [Stays, hpairs.mem_iff, List.mem_append, List.mem_map]
    constructor
    · intro h pair hpair
      exact h pair (.inl hpair)
    · rintro h pair (hpair | ⟨pair, -, rfl⟩)
      · exact h pair hpair
      · exact spares_of_lt hk pair
  have hbehind : ∀ k, Stays marker (w ++ y) (k + w.length) ↔ Stays marker y k := by
    intro k
    simp only [Stays, hpairs.mem_iff, List.mem_append, List.mem_map]
    constructor
    · intro h pair hpair
      exact spares_shift.1 (h _ (.inr ⟨pair, hpair, rfl⟩))
    · rintro h pair (hpair | ⟨pair, hpair, rfl⟩)
      · obtain ⟨h1, h2⟩ := hfront pair hpair
        exact spares_of_gt (by omega) (by omega)
      · exact spares_shift.2 (h pair hpair)
  rw [remainder, keepWhere_append, remainder]
  congr 1
  · exact keepWhere_congr fun k hk => decide_eq_decide.2 (hbefore k hk)
  · simp only [hbehind]

theorem countP_pairs_append
    (hpairs : (pairs (w ++ y)).Perm (front ++ (pairs y).map (shift w.length)))
    (q : Text → Bool) :
    (pairs (w ++ y)).countP (fun pair => q (enclosed (w ++ y) pair)) =
      front.countP (fun pair => q (enclosed (w ++ y) pair)) +
        (pairs y).countP (fun pair => q (enclosed y pair)) := by
  rw [hpairs.countP_eq, List.countP_append, List.countP_map]
  simp only [Function.comp_def, enclosed_shift]

variable {t b : Text} {c : Char}

theorem remainder_cons (h : ¬(c = '{' ∧ StartsClosed Brace.ofChar? t)) :
    remainder marker (c :: t) = c :: remainder marker t := by
  have hcut : remainder marker ([c] ++ t) =
      keepWhere (fun k => ∀ pair ∈ [], Spares marker ([c] ++ t) k pair) [c] ++
        remainder marker t := remainder_append (pairs_cons h) (by simp)
  simpa [keepWhere] using hcut

theorem countP_pairs_cons (h : ¬(c = '{' ∧ StartsClosed Brace.ofChar? t)) (q : Text → Bool) :
    (pairs (c :: t)).countP (fun pair => q (enclosed (c :: t) pair)) =
      (pairs t).countP (fun pair => q (enclosed t pair)) := by
  have hpairs : (pairs ([c] ++ t)).Perm ([] ++ (pairs t).map (shift [c].length)) := pairs_cons h
  simpa using countP_pairs_append hpairs q

theorem pairs_pair_append (hb : Braceless Brace.ofChar? b) :
    (pairs (('{' :: (b ++ ['}'])) ++ y)).Perm
      ([(0, b.length + 1)] ++ (pairs y).map (shift ('{' :: (b ++ ['}'])).length)) := by
  have hcut : '{' :: (b ++ ['}']) ++ y = '{' :: (b ++ '}' :: y) := by simp
  have hlength : ('{' :: (b ++ ['}'])).length = b.length + 2 := by simp
  rw [hcut, hlength]
  exact pairs_pair hb

theorem enclosed_pair (b y : Text) :
    enclosed ('{' :: (b ++ ['}']) ++ y) (0, b.length + 1) = b := by
  have hcut : '{' :: (b ++ ['}']) ++ y = [] ++ '{' :: (b ++ '}' :: y) := by simp
  rw [hcut]
  simpa using enclosed_cut [] b y

theorem remainder_pair (hb : Braceless Brace.ofChar? b) :
    remainder marker ('{' :: (b ++ '}' :: y)) =
      (if marker <:+: b then [] else b) ++ remainder marker y := by
  have hcut : '{' :: (b ++ '}' :: y) = '{' :: (b ++ ['}']) ++ y := by simp
  rw [hcut, remainder_append (pairs_pair_append hb) (by simp)]
  congr 1
  simp only [List.forall_mem_singleton, Spares, enclosed_pair]
  have hinner : ∀ k < b.length,
      decide (k + 1 ≠ 0 ∧ k + 1 ≠ b.length + 1 ∧
        ¬(0 < k + 1 ∧ k + 1 < b.length + 1 ∧ marker <:+: b)) = !decide (marker <:+: b) := by
    intro k hk
    have hne : k ≠ b.length := by omega
    simp [hk, hne]
  rw [keepWhere_cons, keepWhere_append, keepWhere_congr hinner, keepWhere_const]
  simp [keepWhere_cons, keepWhere_nil]

theorem countP_pairs_pair (hb : Braceless Brace.ofChar? b) (q : Text → Bool) :
    (pairs ('{' :: (b ++ '}' :: y))).countP
        (fun pair => q (enclosed ('{' :: (b ++ '}' :: y)) pair)) =
      (if q b then 1 else 0) + (pairs y).countP (fun pair => q (enclosed y pair)) := by
  have hcut : '{' :: (b ++ '}' :: y) = '{' :: (b ++ ['}']) ++ y := by simp
  rw [hcut, countP_pairs_append (pairs_pair_append hb), List.countP_singleton, enclosed_pair]

end Cuts

/-! ## Replacement from left to right -/

/-- The second text is the first with a pattern replaced: the leftmost occurrence, and then those
behind it in the same way. -/
inductive Replaced (pattern replacement : Text) : Text → Text → Prop
  | none {t : Text} (h : ¬pattern <:+: t) : Replaced pattern replacement t t
  | first {before rest rest' : Text}
      (leftmost : ∀ b r, before ++ (pattern ++ rest) = b ++ (pattern ++ r) →
        before.length ≤ b.length)
      (h : Replaced pattern replacement rest rest') :
      Replaced pattern replacement (before ++ (pattern ++ rest)) (before ++ (replacement ++ rest'))

section Replacement

variable {pattern replacement t u u' : Text}

theorem replaced_replaceAll (hne : pattern ≠ []) (t : Text) :
    Replaced pattern replacement t (replaceAll pattern replacement t) := by
  have hempty : pattern.isEmpty = false := by simpa using hne
  rw [replaceAll, hempty]
  simp only [Bool.false_eq_true, if_false]
  induction t using replacement_induction hne with
  | nil => exact .none fun h => hne (List.infix_nil.1 h)
  | hit rest ih =>
    rw [replaceFrom_hit hne]
    show Replaced pattern replacement ([] ++ (pattern ++ rest)) ([] ++ (replacement ++ _))
    exact .first (by simp) ih
  | miss c rest hc ih =>
    rw [replaceFrom_miss hc]
    generalize replaceFrom pattern replacement 0 rest = rest' at ih
    cases ih with
    | none h =>
      refine .none fun h' => ?_
      rcases List.infix_cons_iff.1 h' with h' | h'
      · exact hc h'
      · exact h h'
    | @first before rest rest' leftmost ih =>
      show Replaced pattern replacement ((c :: before) ++ (pattern ++ rest))
        ((c :: before) ++ (replacement ++ rest'))
      refine .first (fun b r heq => ?_) ih
      cases b with
      | nil => exact absurd ⟨r, heq.symm⟩ hc
      | cons d b =>
        have hle := leftmost b r (List.cons.inj heq).2
        simpa using hle

theorem Replaced.unique (h : Replaced pattern replacement t u)
    (h' : Replaced pattern replacement t u') : u = u' := by
  induction h generalizing u' with
  | @none t hnone =>
    cases h' with
    | none => rfl
    | first => exact absurd ⟨_, _, by rw [List.append_assoc]⟩ hnone
  | @first before rest rest' leftmost h ih =>
    generalize ht : before ++ (pattern ++ rest) = t at h'
    cases h' with
    | none hnone => exact absurd ⟨before, rest, by rw [List.append_assoc, ht]⟩ hnone
    | @first before' rest₂ rest₂' leftmost' h' =>
      have hle := leftmost before' rest₂ ht
      have hge := leftmost' before rest ht.symm
      obtain ⟨rfl, htail⟩ := List.append_inj ht (Nat.le_antisymm hle hge)
      obtain rfl := List.append_cancel_left htail
      rw [ih h']

theorem replaced_iff (hne : pattern ≠ []) :
    Replaced pattern replacement t u ↔ replaceAll pattern replacement t = u := by
  constructor
  · exact (replaced_replaceAll hne t).unique
  · rintro rfl
    exact replaced_replaceAll hne t

end Replacement

end Text

/-! ## The second pass -/

namespace Context

open Text Segment

variable (ctx : Context)

theorem collapseFragments_eq_remainder (t : Text) :
    ctx.collapseFragments t = remainder ctx.skipMarker t := by
  rw [collapseFragments, segments]
  induction t using pairing_induction Brace.ofChar? with
  | nil => rfl
  | element a xs ha ih =>
    have hne : ¬(a = '{' ∧ StartsClosed Brace.ofChar? xs) :=
      fun h => ha (Brace.ofChar?_eq_opening.2 h.1)
    rw [ofList_cons_of_ne_opening ha, List.flatMap_cons, ih, remainder_cons hne]
    rfl
  | unpaired o xs ho hx ih =>
    rw [ofList_unpaired ho hx, List.flatMap_cons, ih, remainder_cons fun h => hx h.2]
    rfl
  | pair o b c y ho hb hc ih =>
    obtain rfl := Brace.ofChar?_eq_opening.1 ho
    obtain rfl := Brace.ofChar?_eq_closing.1 hc
    rw [ofList_pair ho hb hc, List.flatMap_cons, ih, remainder_pair hb, collapsed]
    simp only [occursIn_iff]

theorem countP_segments {p : Segment Char → Bool} {q : Text → Bool}
    (hplain : ∀ c, p (plain c) = false) (hfragment : ∀ b, p (fragment b) = q b) (t : Text) :
    (segments t).countP p = (pairs t).countP fun pair => q (enclosed t pair) := by
  rw [segments]
  induction t using pairing_induction Brace.ofChar? with
  | nil => rfl
  | element a xs ha ih =>
    have hne : ¬(a = '{' ∧ StartsClosed Brace.ofChar? xs) :=
      fun h => ha (Brace.ofChar?_eq_opening.2 h.1)
    rw [ofList_cons_of_ne_opening ha, List.countP_cons, hplain, ih, countP_pairs_cons hne]
    rfl
  | unpaired o xs ho hx ih =>
    rw [ofList_unpaired ho hx, List.countP_cons, hplain, ih, countP_pairs_cons fun h => hx h.2]
    rfl
  | pair o b c y ho hb hc ih =>
    obtain rfl := Brace.ofChar?_eq_opening.1 ho
    obtain rfl := Brace.ofChar?_eq_closing.1 hc
    rw [ofList_pair ho hb hc, List.countP_cons, hfragment, ih, countP_pairs_pair hb, Nat.add_comm]

/-- The pairs of a text without and with the skip marker. -/
def pairTally (t : Text) : Tally :=
  ⟨(pairs t).countP fun pair => ¬ctx.skipMarker <:+: enclosed t pair,
    (pairs t).countP fun pair => ctx.skipMarker <:+: enclosed t pair⟩

theorem tallyAfter_eq (tally : Tally) (t : Text) :
    ctx.tallyAfter tally t =
      ⟨tally.kept + (ctx.pairTally t).kept, tally.dropped + (ctx.pairTally t).dropped⟩ := by
  have hkept : ∀ b, isKept ctx.skipMarker (fragment b) = decide (¬ctx.skipMarker <:+: b) := by
    intro b
    rw [isKept, Bool.eq_iff_iff, Bool.not_eq_true', ← Bool.not_eq_true, occursIn_iff,
      decide_eq_true_eq]
  have hdropped : ∀ b, isDropped ctx.skipMarker (fragment b) = decide (ctx.skipMarker <:+: b) := by
    intro b
    rw [isDropped, Bool.eq_iff_iff, occursIn_iff, decide_eq_true_eq]
  rw [tallyAfter, countP_segments (q := fun b => ¬ctx.skipMarker <:+: b) (fun _ => rfl) hkept,
    countP_segments (q := fun b => ctx.skipMarker <:+: b) (fun _ => rfl) hdropped]
  rfl

def tallyAll (texts : List Text) : Tally :=
  texts.foldl (fun tally t => (ctx.collapse tally t).tally) {}

theorem tallyAll_eq (texts : List Text) :
    ctx.tallyAll texts = ⟨(texts.map fun t => (ctx.pairTally t).kept).sum,
      (texts.map fun t => (ctx.pairTally t).dropped).sum⟩ := by
  have hrun : ∀ (tally : Tally), texts.foldl (fun tally t => (ctx.collapse tally t).tally) tally =
      ⟨tally.kept + (texts.map fun t => (ctx.pairTally t).kept).sum,
        tally.dropped + (texts.map fun t => (ctx.pairTally t).dropped).sum⟩ := by
    induction texts with
    | nil => exact fun tally => rfl
    | cons t texts ih =>
      intro tally
      have hstep : (ctx.collapse tally t).tally = ctx.tallyAfter tally t := rfl
      rw [List.foldl_cons, ih, hstep, tallyAfter_eq]
      simp only [List.map_cons, List.sum_cons, Nat.add_assoc]
  rw [tallyAll, hrun]
  simp only [Nat.zero_add]

/-- **The second pass, place by place.** It counts the pairs of braces, those with the skip marker
apart; what is left is the remainder of the text, with the skip literal for the skip markers from
left to right; and it warns if the remainder holds a skip marker. Over a run of texts the tallies
add up. -/
theorem collapse_places (ctx : Context) (hne : ctx.skipMarker ≠ []) :
    (∀ tally t,
      (ctx.collapse tally t).tally =
        ⟨tally.kept + (pairs t).countP (fun pair => ¬ctx.skipMarker <:+: enclosed t pair),
          tally.dropped + (pairs t).countP (fun pair => ctx.skipMarker <:+: enclosed t pair)⟩ ∧
      (∀ u, Replaced ctx.skipMarker ctx.settings.skipLiteral (remainder ctx.skipMarker t) u ↔
        (ctx.collapse tally t).text = u) ∧
      (ctx.collapse tally t).log =
        (if ctx.skipMarker <:+: remainder ctx.skipMarker t then
          [.skipOutsideFragment ctx.settings.skipLiteral] else []) ++
        [.fragments (ctx.collapse tally t).tally.kept (ctx.collapse tally t).tally.dropped]) ∧
    ∀ texts, ctx.tallyAll texts = ⟨(texts.map fun t => (ctx.pairTally t).kept).sum,
      (texts.map fun t => (ctx.pairTally t).dropped).sum⟩ := by
  refine ⟨fun tally t => ⟨ctx.tallyAfter_eq tally t, fun u => ?_, ?_⟩, ctx.tallyAll_eq⟩
  · rw [replaced_iff hne, ← collapseFragments_eq_remainder]
    rfl
  · rw [← collapseFragments_eq_remainder]
    simp only [← occursIn_iff]
    rfl

/-- Braces that find no partner, a pair without the marker, one with it, and a marker outside. -/
theorem collapse_places_unbalanced :
    ((⟨.builtin .mysql, {}, ['M']⟩ : Context).collapse ⟨2, 3⟩
        ['{', 'a', '{', 'b', '}', '{', 'M', '}', '}', '{', 'M']).tally = ⟨3, 4⟩ ∧
      Replaced ['M'] "SKIP_BLOCK".toList ['{', 'a', 'b', '}', '{', 'M']
        ((⟨.builtin .mysql, {}, ['M']⟩ : Context).collapse ⟨2, 3⟩
          ['{', 'a', '{', 'b', '}', '{', 'M', '}', '}', '{', 'M']).text := by
  obtain ⟨htally, htext, -⟩ := (collapse_places ⟨.builtin .mysql, {}, ['M']⟩ (by decide)).1 ⟨2, 3⟩
    ['{', 'a', '{', 'b', '}', '{', 'M', '}', '}', '{', 'M']
  have hremainder : remainder ['M'] ['{', 'a', '{', 'b', '}', '{', 'M', '}', '}', '{', 'M'] =
      ['{', 'a', 'b', '}', '{', 'M'] := by decide +kernel
  refine ⟨htally.trans (by decide +kernel), ?_⟩
  rw [← hremainder]
  exact (htext _).2 rfl

end Context

end QueryTemplate
