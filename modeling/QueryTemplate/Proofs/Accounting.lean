import QueryTemplate.Proofs.Nonce

/-!
# Accounting of arguments

A build uses one argument for each question mark of its template, in dropped fragments too, and
looks at no other (`outcome_accounting`). Fewer arguments make it fail, and the arguments behind the
last marker change nothing but the number of those that were passed.
-/

namespace QueryTemplate

namespace Piece

/-! ## Question marks -/

theorem markerCount_push (c : Char) (following : List Piece) :
    markerCount (push c following) = markerCount following + if c = '?' then 1 else 0 := by
  rw [push]
  split
  · split
    · rename_i m rest h
      match following, h with
      | char k :: tail, h =>
        obtain ⟨m', -, hp⟩ := Option.map_eq_some_iff.1 h
        obtain ⟨-, rfl⟩ := Prod.mk.inj hp
        rw [markerCount_marker, markerCount_char]
    · rw [markerCount_marker]
  · rw [markerCount_char, Nat.add_zero]

theorem markerCount_ofText (template : Text) :
    markerCount (ofText template) = template.count '?' := by
  induction template with
  | nil => rfl
  | cons c rest ih =>
    rw [ofText, List.foldr_cons, ← ofText, markerCount_push, ih, List.count_cons]
    simp only [beq_iff_eq]

theorem exists_marker_ranked {pieces : List Piece} {i : Nat} (h : i < markerCount pieces)
    (start : Nat) : ∃ m, ⟨.marker m, start + i⟩ ∈ ranked start pieces := by
  induction pieces generalizing start i with
  | nil => exact absurd h (Nat.not_lt_zero i)
  | cons p rest ih =>
    cases p with
    | char c =>
      rw [markerCount_char] at h
      obtain ⟨m, hm⟩ := ih h start
      exact ⟨m, List.mem_cons_of_mem _ hm⟩
    | marker m =>
      rw [markerCount_marker] at h
      cases i with
      | zero => exact ⟨m, List.mem_cons_self⟩
      | succ i =>
        obtain ⟨m', hm⟩ := ih (Nat.lt_of_succ_lt_succ h) (start + 1)
        refine ⟨m', List.mem_cons_of_mem _ ?_⟩
        rwa [Nat.add_right_comm] at hm

end Piece

/-! ## Slots and the arguments they take -/

namespace Context

variable {ctx : Context} {template : Text} {arguments : List Argument}

theorem fillSlot_take {s : Slot} {n : Nat} (hn : n ≤ arguments.length)
    (hs : s.piece.isMarker → s.rank < n) :
    ctx.fillSlot (arguments.take n) s = ctx.fillSlot arguments s := by
  obtain ⟨p, rank⟩ := s
  cases p with
  | char c => rfl
  | marker m =>
    have hrank : rank < n := hs rfl
    have hget : arguments[rank]? = some arguments[rank] := List.getElem?_eq_getElem (by omega)
    simp only [fillSlot]
    rw [List.getElem?_take_of_lt hrank, hget]

theorem mapM_congr {α β ε : Type} {f g : α → Except ε β} {xs : List α}
    (h : ∀ x ∈ xs, f x = g x) : xs.mapM f = xs.mapM g := by
  induction xs with
  | nil => rfl
  | cons x xs ih =>
    rw [List.mapM_cons, List.mapM_cons, h x List.mem_cons_self,
      ih fun y hy => h y (List.mem_cons_of_mem _ hy)]

theorem rank_lt_count {s : Slot} (hs : s ∈ Slot.ofText template) (hm : s.piece.isMarker) :
    s.rank < template.count '?' := by
  have hrank := (Piece.ranked_bounds hs).2 hm
  rwa [Nat.zero_add, Piece.markerCount_ofText] at hrank

end Context

/-! ## Builds -/

namespace Handler

variable {h : Handler} {nonce : Nonce} {template : Text} {arguments : List Argument}

/-- A build fills its slots one after the other, and collapses what they have become. -/
theorem outcome_eq_mapM :
    (h.compile nonce template arguments).outcome =
      ((Slot.ofText template).mapM ((h.context nonce).fillSlot arguments)).map fun texts =>
        ⟨((h.context nonce).collapse {} texts.flatten).text, h.escaper.dialect,
          (template.count '?' : Nat), arguments.length⟩ := by
  have hscan := Context.mapM_fill_eq (h.context nonce) arguments (Piece.ofText template) 0
  have hstart : Cursor.start arguments = ⟨arguments, (0 : Nat)⟩ := rfl
  rw [← Slot.ofText] at hscan
  cases htexts : (Slot.ofText template).mapM ((h.context nonce).fillSlot arguments) with
  | ok texts =>
    rw [htexts, Nat.zero_add, Piece.markerCount_ofText] at hscan
    have hsub : (h.context nonce).substitute template (.start arguments) =
        .ok texts.flatten ⟨arguments, (template.count '?' : Nat)⟩ := by
      rw [Context.substitute, Context.scan_bind, hstart]
      simp only [hscan, pure, EStateM.pure]
    exact outcome_of_substitute hsub
  | error e =>
    rw [htexts] at hscan
    obtain ⟨c, hc⟩ := hscan
    have hsub : (h.context nonce).substitute template (.start arguments) = .error e c := by
      rw [Context.substitute, Context.scan_bind, hstart]
      simp only [hc]
    rw [context] at hsub
    simp only [compile, hsub]
    rfl

theorem exists_outcome_iff :
    (∃ q, (h.compile nonce template arguments).outcome = .ok q) ↔
      ∀ s ∈ Slot.ofText template, ∃ t, (h.context nonce).fillSlot arguments s = .ok t := by
  have hslots : ∀ texts,
      (Slot.ofText template).mapM ((h.context nonce).fillSlot arguments) = .ok texts ↔ _ :=
    fun _ => Context.mapM_eq_ok_iff fun _ _ => Context.eq_text_tokens
  rw [outcome_eq_mapM]
  constructor
  · rintro ⟨q, hq⟩ s hs
    cases htexts : (Slot.ofText template).mapM ((h.context nonce).fillSlot arguments) with
    | ok texts => exact ⟨_, ((hslots texts).1 htexts).1 s hs⟩
    | error e =>
      rw [htexts] at hq
      cases hq
  · intro hfill
    rw [(hslots _).2 ⟨fun s hs => ?_, rfl⟩]
    · exact ⟨_, rfl⟩
    · obtain ⟨t, ht⟩ := hfill s hs
      rw [ht, Context.eq_text_tokens ht]

theorem count_le_of_outcome {q : CompiledQuery}
    (hq : (h.compile nonce template arguments).outcome = .ok q) :
    template.count '?' ≤ arguments.length := by
  by_contra hlt
  have hlt : arguments.length < Piece.markerCount (Piece.ofText template) := by
    rw [Piece.markerCount_ofText]
    omega
  obtain ⟨m, hm⟩ := Piece.exists_marker_ranked hlt 0
  rw [Nat.zero_add] at hm
  obtain ⟨t, ht⟩ := exists_outcome_iff.1 ⟨q, hq⟩ _ hm
  simp [Context.fillSlot] at ht

theorem outcome_take (hle : template.count '?' ≤ arguments.length) :
    (h.compile nonce template arguments).outcome =
      (h.compile nonce template (arguments.take (template.count '?'))).outcome.map
        fun q => { q with supplied := arguments.length } := by
  have hfill : (Slot.ofText template).mapM
      ((h.context nonce).fillSlot (arguments.take (template.count '?'))) =
        (Slot.ofText template).mapM ((h.context nonce).fillSlot arguments) := by
    apply Context.mapM_congr
    intro s hs
    exact Context.fillSlot_take hle (Context.rank_lt_count hs)
  rw [outcome_eq_mapM, outcome_eq_mapM, hfill]
  cases (Slot.ofText template).mapM ((h.context nonce).fillSlot arguments) <;> rfl

/-- **Accounting of arguments.** With fewer arguments than question marks a build fails. With
enough, only those up to the last marker decide: without the others a build fails with the same
error, for whatever nonces, and gives the same query, for one nonce or without NUL also for two. A
build gives a query if each marker can be filled, and then tells how many arguments were used,
passed and left over. -/
theorem outcome_accounting (h : Handler) (nonce : Nonce) (template : Text)
    (arguments : List Argument) :
    (arguments.length < template.count '?' →
      ∃ e, (h.compile nonce template arguments).outcome = .error e) ∧
    (template.count '?' ≤ arguments.length → ∀ nonce',
      (∀ e, (h.compile nonce template arguments).outcome = .error e ↔
        (h.compile nonce' template (arguments.take (template.count '?'))).outcome = .error e) ∧
      (nonce' = nonce ∨ (h.context nonce).NulFree template arguments →
        (h.compile nonce template arguments).outcome =
          (h.compile nonce' template (arguments.take (template.count '?'))).outcome.map
            fun q => { q with supplied := arguments.length })) ∧
    ((∃ q, (h.compile nonce template arguments).outcome = .ok q) ↔
      ∀ s ∈ Slot.ofText template, ∃ t, (h.context nonce).fillSlot arguments s = .ok t) ∧
    ∀ q, (h.compile nonce template arguments).outcome = .ok q →
      q.used = template.count '?' ∧ q.supplied = arguments.length ∧
        q.unused = arguments.length - template.count '?' ∧ 0 ≤ q.unused := by
  refine ⟨fun hlt => ?_, fun hle nonce' => ⟨fun e => ?_, fun hsame => ?_⟩, exists_outcome_iff,
    fun q hq => ?_⟩
  · cases hout : (h.compile nonce template arguments).outcome with
    | error e => exact ⟨e, rfl⟩
    | ok q => exact absurd (count_le_of_outcome hout) (Nat.not_le_of_lt hlt)
  · rw [outcome_error_iff nonce nonce', outcome_take hle]
    cases (h.compile nonce' template (arguments.take (template.count '?'))).outcome <;>
      simp [Except.map]
  · rw [← outcome_take hle]
    rcases hsame with rfl | hnul
    · rfl
    · rw [compile_nonce hnul nonce']
  · have hle := count_le_of_outcome hq
    rw [outcome_eq_mapM] at hq
    cases htexts : (Slot.ofText template).mapM ((h.context nonce).fillSlot arguments) with
    | error e =>
      rw [htexts] at hq
      cases hq
    | ok texts =>
      rw [htexts] at hq
      obtain rfl := Except.ok.inj hq
      refine ⟨rfl, rfl, rfl, ?_⟩
      simp only [CompiledQuery.unused]
      omega

/-- A marker in a dropped fragment uses its argument, and something that no query can hold is left
over. -/
theorem outcome_accounting_dropped :
    (∃ e, ((⟨.builtin .mysql, {}⟩ : Handler).compile (.replicate 32 0) ['{', '?', '}', '?', 'd']
        [.value .skip]).outcome = .error e) ∧
      ((⟨.builtin .mysql, {}⟩ : Handler).compile (.replicate 32 0) ['{', '?', '}', '?', 'd']
          [.value .skip, .scalar (.int 7), .foreign "object"]).outcome =
        ((⟨.builtin .mysql, {}⟩ : Handler).compile (.replicate 32 0) ['{', '?', '}', '?', 'd']
          [.value .skip, .scalar (.int 7)]).outcome.map (fun q => { q with supplied := 3 }) ∧
      ∃ q, ((⟨.builtin .mysql, {}⟩ : Handler).compile (.replicate 32 0) ['{', '?', '}', '?', 'd']
          [.value .skip, .scalar (.int 7), .foreign "object"]).outcome = .ok q ∧
        q.used = 2 ∧ q.supplied = 3 ∧ q.unused = 1 := by
  obtain ⟨hfew, -, -⟩ := outcome_accounting ⟨.builtin .mysql, {}⟩ (.replicate 32 0)
    ['{', '?', '}', '?', 'd'] [.value .skip]
  obtain ⟨-, htake, -, hcounts⟩ := outcome_accounting ⟨.builtin .mysql, {}⟩ (.replicate 32 0)
    ['{', '?', '}', '?', 'd'] [.value .skip, .scalar (.int 7), .foreign "object"]
  refine ⟨hfew (by decide), (htake (by decide) _).2 (.inl rfl), ⟨['7'], "mysql", 2, 3⟩, ?_⟩
  have hout : ((⟨.builtin .mysql, {}⟩ : Handler).compile (.replicate 32 0) ['{', '?', '}', '?', 'd']
      [.value .skip, .scalar (.int 7), .foreign "object"]).outcome =
        .ok ⟨['7'], "mysql", 2, 3⟩ := by rfl
  obtain ⟨hused, hsupplied, hunused, -⟩ := hcounts _ hout
  exact ⟨hout, hused, hsupplied, hunused⟩

end Handler

end QueryTemplate
