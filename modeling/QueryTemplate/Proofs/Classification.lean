import Mathlib.Data.List.Forall2
import Mathlib.Data.List.Induction
import QueryTemplate.Proofs.CanonicalInteger
import QueryTemplate.Proofs.ExactValue

/-!
# Classification of maps

A map is an indexed array when its keys equal 0, 1, 2, ... in this order, and an associative one
otherwise (`isAssociative_iff`). Its elements are looked at in order, and the first that is no
scalar is the failure of the whole (`outcome_mapM`). The labels of an associative array are the
different texts of its keys in the order in which they first occur, each with the last scalar that
is written under it (`lastWrites_ofEntries`). `classify_map` puts this together.
-/

namespace QueryTemplate

/-! ## Tables made by writing -/

namespace Table

variable {κ α : Type} [DecidableEq κ]

/-- A table has each key once, at the place of the first entry and with the value of the last. -/
structure LastWrites (entries : List (κ × α)) (t : Table κ α) : Prop where
  keys : t.keys = (entries.map Prod.fst).eraseDups
  mem_iff : ∀ key value, (key, value) ∈ t ↔
    ∃ before after, entries = before ++ (key, value) :: after ∧ key ∉ after.map Prod.fst

theorem mem_iff_get? {t : Table κ α} (h : t.keys.Nodup) (key : κ) (value : α) :
    (key, value) ∈ t ↔ t.get? key = some value := by
  induction t with
  | nil => simp [get?]
  | cons entry rest ih =>
    obtain ⟨k, v⟩ := entry
    rw [keys, List.map_cons, List.nodup_cons] at h
    rw [List.mem_cons, ih h.2, get?]
    by_cases hk : k = key
    · subst hk
      have hnone : get? rest k = none := (get?_eq_none_iff rest k).2 h.1
      simp [hnone, eq_comm]
    · simp [hk, Ne.symm hk]

theorem exists_last_concat (entries : List (κ × α)) (k key : κ) (v value : α) :
    (∃ before after, entries ++ [(k, v)] = before ++ (key, value) :: after ∧
      key ∉ after.map Prod.fst) ↔
    if k = key then v = value else
      ∃ before after, entries = before ++ (key, value) :: after ∧ key ∉ after.map Prod.fst := by
  constructor
  · rintro ⟨before, after, heq, hafter⟩
    rcases List.eq_nil_or_concat' after with rfl | ⟨after, last, rfl⟩
    · obtain ⟨-, hlast⟩ := List.append_inj' heq rfl
      obtain ⟨rfl, rfl⟩ : k = key ∧ v = value := by simpa using hlast
      rw [if_pos rfl]
    · rw [← List.cons_append, ← List.append_assoc] at heq
      obtain ⟨rfl, hlast⟩ := List.append_inj' heq rfl
      obtain rfl : (k, v) = last := by simpa using hlast
      rw [List.map_append, List.mem_append, not_or] at hafter
      rw [if_neg fun hk => hafter.2 (by simp [hk])]
      exact ⟨before, after, rfl, hafter.1⟩
  · split
    · rename_i hk
      rintro rfl
      exact ⟨entries, [], by rw [hk], List.not_mem_nil⟩
    · rename_i hk
      rintro ⟨before, after, rfl, hafter⟩
      refine ⟨before, after ++ [(k, v)], by simp, ?_⟩
      rw [List.map_append, List.mem_append, not_or]
      exact ⟨hafter, by simpa using Ne.symm hk⟩

theorem LastWrites.concat {entries : List (κ × α)} {t : Table κ α} (h : LastWrites entries t)
    (hnodup : t.keys.Nodup) (k : κ) (v : α) :
    LastWrites (entries ++ [(k, v)]) (t.set k v) where
  keys := by
    have hmem : k ∈ t.keys ↔ k ∈ entries.map Prod.fst := by rw [h.keys, List.mem_eraseDups]
    rw [keys_set, List.map_append, List.eraseDups_append, ← h.keys, List.map_singleton]
    by_cases hk : k ∈ entries.map Prod.fst
    · have hnone : [k].removeAll (entries.map Prod.fst) = [] := by simpa [List.removeAll] using hk
      rw [if_pos (hmem.2 hk), hnone, List.eraseDups_nil, List.append_nil]
    · have hone : [k].removeAll (entries.map Prod.fst) = [k] := by simpa [List.removeAll] using hk
      rw [if_neg fun hk' => hk (hmem.1 hk'), hone, List.eraseDups_cons,
        List.filter_nil, List.eraseDups_nil]
  mem_iff key value := by
    rw [exists_last_concat, ← h.mem_iff, mem_iff_get? (nodup_keys_set hnodup k v),
      mem_iff_get? hnodup, get?_set]
    split
    · rw [Option.some.injEq]
    · rfl

theorem lastWrites_ofEntries (entries : List (κ × α)) :
    (ofEntries entries).keys.Nodup ∧ LastWrites entries (ofEntries entries) := by
  induction entries using List.reverseRecOn with
  | nil => exact ⟨List.nodup_nil, rfl, by simp [ofEntries]⟩
  | append_singleton entries entry ih =>
    have hset : ofEntries (entries ++ [entry]) = (ofEntries entries).set entry.1 entry.2 := by
      rw [ofEntries, List.foldl_append]
      rfl
    rw [hset]
    exact ⟨nodup_keys_set ih.1 _ _, ih.2.concat ih.1 _ _⟩

end Table

/-! ## Elements in order -/

/-- How something ends that looks for an obstacle: with the obstacle as its failure if there is one,
and otherwise with a result that has the property `P`. -/
inductive Outcome {ε β : Type} (P : β → Prop) : Option ε → Except ε β → Prop where
  | failed (e : ε) : Outcome P (some e) (.error e)
  | done {y : β} (h : P y) : Outcome P none (.ok y)

namespace Outcome

variable {ε β γ : Type} {P : β → Prop} {obstacle : Option ε} {r : Except ε β}

theorem error_iff (h : Outcome P obstacle r) :
    (∃ e, r = .error e) ↔ ∃ e, obstacle = some e := by
  cases h with
  | failed e => exact ⟨fun _ => ⟨e, rfl⟩, fun _ => ⟨e, rfl⟩⟩
  | done hy => simp

theorem of_some {e : ε} (h : Outcome P (some e) r) : r = .error e := by
  cases h
  rfl

theorem eq_some {e : ε} (h : Outcome P obstacle (.error e)) : obstacle = some e := by
  cases h
  rfl

theorem of_ok {y : β} (h : Outcome P obstacle (.ok y)) : P y := by
  cases h with
  | done hy => exact hy

theorem of_none (h : Outcome P (none : Option ε) r) : ∃ y, r = .ok y ∧ P y := by
  cases h with
  | done hy => exact ⟨_, rfl, hy⟩

theorem map (h : Outcome P obstacle r) {Q : γ → Prop} {f : β → γ} (hf : ∀ y, P y → Q (f y)) :
    Outcome Q obstacle (r.map f) := by
  cases h with
  | failed e => exact .failed e
  | done hy => exact .done (hf _ hy)

end Outcome

theorem outcome_mapM {α β ε : Type} {f : α → Except ε β} {obstacle? : α → Option ε}
    {R : α → β → Prop} (h : ∀ x, Outcome (R x) (obstacle? x) (f x)) (xs : List α) :
    Outcome (List.Forall₂ R xs) (xs.findSome? obstacle?) (xs.mapM f) := by
  induction xs with
  | nil => exact .done .nil
  | cons x xs ih =>
    rw [List.findSome?_cons, List.mapM_cons]
    have hx := h x
    generalize obstacle? x = o, f x = r at hx ⊢
    cases hx with
    | failed e => exact .failed e
    | done hy =>
      exact ih.map (f := fun ys => _ :: ys) fun ys hys => .cons hy hys

namespace Argument

/-- Why an argument cannot be an element: anything but a scalar is refused, under the name of its
kind when it is classified already, and of its type otherwise. -/
def refusal? : Argument → Option BuildError
  | scalar _ => none
  | list _ => some (.unsupported "list")
  | tuple _ => some (.unsupported "tuple")
  | map _ => some (.unsupported "dict")
  | value v => some (.unsupported v.kind)
  | foreign typeName => some (.unsupported typeName)

theorem refusal?_eq_none_iff (a : Argument) : a.refusal? = none ↔ ∃ s, a = .scalar s := by
  cases a <;> simp [refusal?]

theorem outcome_asScalar (a : Argument) :
    Outcome (fun s => a = .scalar s) a.refusal? a.asScalar := by
  cases a with
  | scalar s => exact .done rfl
  | _ => exact .failed _

/-- Why an entry cannot be one of an associative array. The key is looked at before the element. -/
def obstacle? (entry : Scalar × Argument) : Option BuildError :=
  if entry.1.Writable then entry.2.refusal? else some .unwritableInteger

def Labels (entry : Scalar × Argument) (labelled : Text × Scalar) : Prop :=
  entry.1.label = .ok labelled.1 ∧ entry.2 = .scalar labelled.2

theorem outcome_labelled (entry : Scalar × Argument) :
    Outcome (Labels entry) (obstacle? entry) (labelled entry) := by
  rw [obstacle?, labelled]
  split
  · rename_i hkey
    obtain ⟨t, ht⟩ := Scalar.label_of_writable hkey
    rw [ht]
    exact (outcome_asScalar entry.2).map (f := fun s => (t, s)) fun s hs => ⟨ht, hs⟩
  · rename_i hkey
    rw [Scalar.label_of_not_writable hkey]
    exact .failed _

/-! ## Indexed and associative arrays -/

def CountUp (keys : List Scalar) : Prop :=
  ∀ (i : Nat) key, keys[i]? = some key → key.value? = some (i : ℚ)

theorem countsFrom_iff (start : Nat) (keys : List Scalar) :
    countsFrom start keys ↔
      ∀ (i : Nat) key, keys[i]? = some key → key.value? = some ((start + i : Nat) : ℚ) := by
  induction keys generalizing start with
  | nil => simp [countsFrom]
  | cons key rest ih =>
    have hkey : key.integer? = some (start : Int) ↔ key.value? = some ((start : Nat) : ℚ) := by
      rw [Scalar.integer?_eq_some_iff, Int.cast_natCast]
    have hindex : ∀ i, start + 1 + i = start + (i + 1) := fun i => by omega
    rw [countsFrom, Bool.and_eq_true, beq_iff_eq, hkey, ih]
    constructor
    · rintro ⟨hfirst, hrest⟩ i k hk
      cases i with
      | zero =>
        obtain rfl := Option.some.inj hk
        exact hfirst
      | succ i =>
        rw [← hindex]
        exact hrest i k hk
    · intro h
      refine ⟨h 0 key rfl, fun i k hk => ?_⟩
      rw [hindex]
      exact h (i + 1) k hk

theorem countsFrom_zero_iff (keys : List Scalar) : countsFrom 0 keys ↔ CountUp keys := by
  have h := countsFrom_iff 0 keys
  simp only [Nat.zero_add] at h
  exact h

theorem isAssociative_iff (keys : List Scalar) : isAssociative keys ↔ ¬CountUp keys := by
  rw [isAssociative, Bool.not_eq_true', ← Bool.not_eq_true, countsFrom_zero_iff]

theorem outcome_list (items : List Argument) :
    Outcome (fun v => ∃ scalars : List Scalar, items = scalars.map .scalar ∧
      v = .datum (.sequence scalars)) (items.findSome? refusal?) (classify (.list items)) := by
  refine (outcome_mapM outcome_asScalar items).map (f := fun s => Value.datum (.sequence s)) ?_
  intro scalars h
  refine ⟨scalars, ?_, rfl⟩
  rwa [← List.forall₂_eq_eq_eq, List.forall₂_map_right_iff]

theorem classify_indexed {entries : List (Scalar × Argument)}
    (h : CountUp (entries.map Prod.fst)) :
    classify (.map entries) = classify (.list (entries.map Prod.snd)) := by
  have hindexed : isAssociative (entries.map Prod.fst) = false := by
    rw [← Bool.not_eq_true, isAssociative_iff, not_not]
    exact h
  rw [classify, classify, hindexed, List.mapM_map]
  rfl

theorem outcome_associative {entries : List (Scalar × Argument)}
    (h : ¬CountUp (entries.map Prod.fst)) :
    Outcome (fun v => ∃ labelled t, List.Forall₂ Labels entries labelled ∧
      Table.LastWrites labelled t ∧ v = .datum (.mapping t))
      (entries.findSome? obstacle?) (classify (.map entries)) := by
  rw [classify, if_pos ((isAssociative_iff _).2 h)]
  refine (outcome_mapM outcome_labelled entries).map
    (f := fun l => Value.datum (.mapping (.ofEntries l))) ?_
  intro labelled hlabels
  exact ⟨labelled, _, hlabels, (Table.lastWrites_ofEntries labelled).2, rfl⟩

theorem renderArgument_congr {a a' : Argument} (h : a.classify = a'.classify) (ctx : Context)
    (m : Marker) : ctx.renderArgument m a = ctx.renderArgument m a' := by
  rw [Context.renderArgument, h]
  rfl

theorem findSome?_obstacle? {entries : List (Scalar × Argument)}
    (h : ∀ key ∈ entries.map Prod.fst, key.Writable) :
    entries.findSome? obstacle? = (entries.map Prod.snd).findSome? refusal? := by
  induction entries with
  | nil => rfl
  | cons entry rest ih =>
    rw [List.map_cons, List.forall_mem_cons] at h
    rw [List.map_cons, List.findSome?_cons, List.findSome?_cons, obstacle?, if_pos h.1, ih h.2]

theorem exists_refusal?_iff (items : List Argument) :
    (∃ e, items.findSome? refusal? = some e) ↔ ∃ a ∈ items, ∀ s, a ≠ .scalar s := by
  rw [← Option.ne_none_iff_exists', ne_eq, List.findSome?_eq_none_iff]
  simp [refusal?_eq_none_iff]

theorem exists_obstacle?_iff (entries : List (Scalar × Argument)) :
    (∃ e, entries.findSome? obstacle? = some e) ↔
      (∃ a ∈ entries.map Prod.snd, ∀ s, a ≠ .scalar s) ∨
        ∃ key ∈ entries.map Prod.fst, ¬key.Writable := by
  have hentry : ∀ entry, obstacle? entry = none ↔ entry.1.Writable ∧ ∃ s, entry.2 = .scalar s := by
    intro entry
    rw [obstacle?, ← refusal?_eq_none_iff]
    split <;> simp_all
  rw [← Option.ne_none_iff_exists', ne_eq, List.findSome?_eq_none_iff]
  simp only [hentry, List.mem_map, not_forall, not_and, not_exists]
  constructor
  · rintro ⟨entry, hentry, h⟩
    by_cases hkey : entry.1.Writable
    · exact .inl ⟨entry.2, ⟨entry, hentry, rfl⟩, h hkey⟩
    · exact .inr ⟨entry.1, ⟨entry, hentry, rfl⟩, hkey⟩
  · rintro (⟨a, ⟨entry, hentry, rfl⟩, h⟩ | ⟨key, ⟨entry, hentry, rfl⟩, h⟩)
    · exact ⟨entry, hentry, fun _ => h⟩
    · exact ⟨entry, hentry, fun hkey => absurd hkey h⟩

/-- **Classification of maps.** Keys that count up make a sequence of the elements, and the first
element that is no scalar is the failure. Other keys make a mapping, which has every label at the
place of its first entry and with the scalar of its last; here a key that cannot be written is a
failure too, before that of its element. With short keys only the elements can fail. Under every
marker, keys that count up might as well not be there. -/
theorem classify_map (entries : List (Scalar × Argument)) :
    let keys := entries.map Prod.fst
    let elements := entries.map Prod.snd
    (CountUp keys →
      Outcome (fun v => ∃ scalars : List Scalar, elements = scalars.map .scalar ∧
        v = .datum (.sequence scalars)) (elements.findSome? refusal?) (classify (.map entries))) ∧
    (¬CountUp keys →
      Outcome (fun v => ∃ labelled t, List.Forall₂ Labels entries labelled ∧
        Table.LastWrites labelled t ∧ v = .datum (.mapping t))
        (entries.findSome? obstacle?) (classify (.map entries))) ∧
    ((∃ e, classify (.map entries) = .error e) ↔
      (∃ a ∈ elements, ∀ s, a ≠ .scalar s) ∨ ¬CountUp keys ∧ ∃ key ∈ keys, ¬key.Writable) ∧
    ((∀ key ∈ keys, key.Writable) →
      entries.findSome? obstacle? = elements.findSome? refusal?) ∧
    (CountUp keys → ∀ (ctx : Context) m,
      ctx.renderArgument m (.map entries) = ctx.renderArgument m (.list elements) ∧
      ctx.renderArgument m (.map entries) = ctx.renderArgument m (.tuple elements)) := by
  intro keys elements
  refine ⟨fun h => ?_, outcome_associative, ?_, findSome?_obstacle?, fun h ctx m => ?_⟩
  · rw [classify_indexed h]
    exact outcome_list elements
  · by_cases h : CountUp keys
    · rw [classify_indexed h, (outcome_list elements).error_iff, exists_refusal?_iff]
      simp [h]
    · rw [(outcome_associative h).error_iff, exists_obstacle?_iff]
      simp only [h, not_false_eq_true, true_and]
      rfl
  · exact ⟨renderArgument_congr (classify_indexed h) ctx m,
      renderArgument_congr (classify_indexed h) ctx m⟩

/-- Keys of other types that equal 0 and 1; keys of other types with one text; and an element that
is a list. -/
theorem classify_map_mixed_keys :
    CountUp [.bool false, .float .one] ∧
    (∃ scalars : List Scalar, [scalar (.text ['a']), scalar .null] = scalars.map .scalar ∧
      classify (.map [(.bool false, .scalar (.text ['a'])), (.float .one, .scalar .null)]) =
        .ok (.datum (.sequence scalars))) ∧
    ¬CountUp [.text ['1'], .int 0, .int 1] ∧
    (∃ labelled t, List.Forall₂ Labels
        [(.text ['1'], .scalar .null), (.int 0, .scalar (.int 5)), (.int 1, .scalar (.bool true))]
        labelled ∧
      Table.LastWrites labelled t ∧
      classify (.map [(.text ['1'], .scalar .null), (.int 0, .scalar (.int 5)),
        (.int 1, .scalar (.bool true))]) = .ok (.datum (.mapping t))) ∧
    ¬CountUp [.text ['1'], .int 0] ∧
    classify (.map [(.text ['1'], .scalar .null), (.int 0, .list [])]) =
      .error (.unsupported "list") := by
  have hcount : CountUp [.bool false, .float .one] :=
    (countsFrom_zero_iff _).1 (by decide +kernel)
  have htext : ∀ rest, ¬CountUp (.text ['1'] :: rest) := fun rest h => nomatch h 0 _ rfl
  refine ⟨hcount, ?_, htext _, ?_, htext _, ?_⟩
  · obtain ⟨v, hv, scalars, hscalars, rfl⟩ := ((classify_map
      [(.bool false, .scalar (.text ['a'])), (.float .one, .scalar .null)]).1 hcount).of_none
    exact ⟨scalars, hscalars, hv⟩
  · obtain ⟨v, hv, labelled, t, hlabels, hlast, rfl⟩ := ((classify_map
      [(.text ['1'], .scalar .null), (.int 0, .scalar (.int 5)),
        (.int 1, .scalar (.bool true))]).2.1 (htext _)).of_none
    exact ⟨labelled, t, hlabels, hlast, hv⟩
  · exact ((classify_map [(.text ['1'], .scalar .null), (.int 0, .list [])]).2.1 (htext _)).of_some

/-- A key of more digits than can be written keeps a map of scalars from being classified. Its text
cannot be read either, so such a key is always calculated. -/
theorem classify_map_long_key :
    classify (.map [(.int (10 ^ digitLimit), .scalar .null)]) = .error .unwritableInteger ∧
      (∀ a ∈ [((.int (10 ^ digitLimit) : Scalar), scalar .null)].map Prod.snd,
        ∃ s, a = .scalar s) ∧
      (Datum.scalar (.text (Text.ofInt (10 ^ digitLimit)))).toInt =
        .error (.unreadableInteger (digitLimit + 1)) := by
  have habs : ∀ k : Nat, ((10 : Int) ^ k).natAbs = 10 ^ k := Int.natAbs_pow 10
  have hlong : ¬(Text.ofNat ((10 : Int) ^ digitLimit).natAbs).length ≤ digitLimit := by
    rw [Text.length_ofNat_le_digitLimit, habs]
    exact Nat.lt_irrefl _
  have hlength : (Text.ofNat ((10 : Int) ^ digitLimit).natAbs).length = digitLimit + 1 := by
    have hle : (Text.ofNat ((10 : Int) ^ digitLimit).natAbs).length ≤ digitLimit + 1 := by
      rw [habs, Text.ofNat, Nat.length_toDigits_le_iff (by decide) (Nat.succ_pos _)]
      exact Nat.pow_lt_pow_right (by decide) (Nat.lt_succ_self _)
    omega
  have hkey : ¬(Scalar.int (10 ^ digitLimit)).Writable := by
    rwa [Scalar.writable_int_iff]
  have hcount : ¬CountUp ([((.int (10 ^ digitLimit) : Scalar), scalar .null)].map Prod.fst) := by
    intro h
    have hzero := Option.some.inj (h 0 _ rfl)
    simp at hzero
  have hobstacle : [((.int (10 ^ digitLimit) : Scalar), scalar .null)].findSome? obstacle? =
      some .unwritableInteger := by
    rw [List.findSome?_cons, obstacle?, if_neg hkey]
  have hout := outcome_associative hcount
  rw [hobstacle] at hout
  refine ⟨hout.of_some, by simp, ?_⟩
  rw [Datum.toInt_ofInt, if_neg hlong, hlength]

end Argument

end QueryTemplate
