import QueryTemplate.Proofs.Layout

/-!
# Histories of a cursor

Arguments are taken from a cursor one by one, and templates are substituted with it, in any order
and whether they succeed or fail. A recorder goes through the same uses and keeps a list of what
they are handed. One use hands out the arguments that the cursor passes (`Records`, which sequencing
preserves), so a whole history of uses does (`Recorder.passes_after`). `reached_after` adds what
this means for the position, and for failures.
-/

namespace QueryTemplate

/-! ## Recording what is handed out -/

/-- A cursor, with the arguments that it has handed out. -/
structure Recorder where
  cursor : Cursor
  handed : List Argument

def Recorder.take (marker : Text) : EStateM BuildError Recorder Argument := fun r =>
  match Cursor.take marker r.cursor with
  | .ok a c => .ok a ⟨c, r.handed ++ [a]⟩
  | .error e c => .error e ⟨c, r.handed⟩

def Recorder.takeValue (marker : Text) : EStateM BuildError Recorder Value := do
  ofExcept (← Recorder.take marker).classify

namespace Context

variable (ctx : Context)

def recordFill : Piece → EStateM BuildError Recorder Text
  | .char c => return [c]
  | .marker m => do
    let a ← Recorder.take m.text
    ofExcept (ctx.renderArgument m a)

def recordSubstitute (template : Text) : EStateM BuildError Recorder Text := do
  return (← (Piece.ofText template).mapM ctx.recordFill).flatten

end Context

/-! ## Uses -/

def leaves {σ α : Type} (x : EStateM BuildError σ α) (s : σ) : σ :=
  match x s with
  | .ok _ s => s
  | .error _ s => s

namespace Cursor

inductive Use where
  | take (marker : Text)
  | takeValue (marker : Text)
  | substitute (ctx : Context) (template : Text)

def Use.move : Use → Cursor → Cursor
  | .take marker => leaves (Cursor.take marker)
  | .takeValue marker => leaves (Cursor.takeValue marker)
  | .substitute ctx template => leaves (ctx.substitute template)

def Use.record : Use → Recorder → Recorder
  | .take marker => leaves (Recorder.take marker)
  | .takeValue marker => leaves (Recorder.takeValue marker)
  | .substitute ctx template => leaves (ctx.recordSubstitute template)

def after (c : Cursor) (uses : List Use) : Cursor := uses.foldl (fun c use => use.move c) c

end Cursor

open Cursor

def Recorder.after (r : Recorder) (uses : List Use) : Recorder :=
  uses.foldl (fun r use => use.record r) r

/-- The arguments that some uses of a cursor are handed. -/
def Cursor.handedOut (c : Cursor) (uses : List Use) : List Argument :=
  (Recorder.after ⟨c, []⟩ uses).handed

/-! ## Taking one argument -/

namespace Cursor

variable {arguments : List Argument}

theorem take_next {n : Nat} {a : Argument} (ha : arguments[n]? = some a) (marker : Text) :
    take marker ⟨arguments, n⟩ = .ok a ⟨arguments, (n + 1 : Nat)⟩ := by
  have hlt : ¬(arguments.length : Int) ≤ n := by
    obtain ⟨hlt, -⟩ := List.getElem?_eq_some_iff.1 ha
    omega
  simp [take, current?, hlt, ha]

theorem take_length (marker : Text) :
    take marker ⟨arguments, arguments.length⟩ =
      .error (.template (.missingArgument arguments.length marker arguments.length))
        ⟨arguments, arguments.length⟩ := by
  simp [take]

theorem takeValue_next {n : Nat} {a : Argument} (ha : arguments[n]? = some a) (marker : Text) :
    takeValue marker ⟨arguments, n⟩ =
      match a.classify with
      | .ok v => .ok v ⟨arguments, (n + 1 : Nat)⟩
      | .error e => .error e ⟨arguments, (n + 1 : Nat)⟩ := by
  rw [takeValue, Context.scan_bind, take_next ha]
  simp only
  cases a.classify <;> rfl

theorem takeValue_length (marker : Text) :
    takeValue marker ⟨arguments, arguments.length⟩ =
      .error (.template (.missingArgument arguments.length marker arguments.length))
        ⟨arguments, arguments.length⟩ := by
  rw [takeValue, Context.scan_bind, take_length]

theorem take_error {n : Nat} (hn : n ≤ arguments.length) {marker : Text} {e : BuildError}
    {c : Cursor} (h : take marker ⟨arguments, n⟩ = .error e c) :
    n = arguments.length ∧ e = .template (.missingArgument n marker n) ∧ c = ⟨arguments, n⟩ := by
  cases ha : arguments[n]? with
  | some a =>
    rw [take_next ha] at h
    cases h
  | none =>
    obtain rfl := Nat.le_antisymm hn (List.getElem?_eq_none_iff.1 ha)
    rw [take_length] at h
    obtain ⟨rfl, rfl⟩ := EStateM.Result.error.inj h
    exact ⟨rfl, rfl, rfl⟩

theorem takeValue_error {n : Nat} (hn : n ≤ arguments.length) {marker : Text} {e : BuildError}
    {c : Cursor} (h : takeValue marker ⟨arguments, n⟩ = .error e c) :
    (n = arguments.length ∧ e = .template (.missingArgument n marker n) ∧ c = ⟨arguments, n⟩) ∨
    ∃ a, arguments[n]? = some a ∧ a.classify = .error e ∧ c = ⟨arguments, (n + 1 : Nat)⟩ := by
  cases ha : arguments[n]? with
  | some a =>
    rw [takeValue_next ha] at h
    cases hv : a.classify with
    | ok v =>
      rw [hv] at h
      cases h
    | error e' =>
      rw [hv] at h
      obtain ⟨rfl, rfl⟩ := EStateM.Result.error.inj h
      exact .inr ⟨a, rfl, hv, rfl⟩
  | none =>
    obtain rfl := Nat.le_antisymm hn (List.getElem?_eq_none_iff.1 ha)
    rw [takeValue_length] at h
    obtain ⟨rfl, rfl⟩ := EStateM.Result.error.inj h
    exact .inl ⟨rfl, rfl, rfl⟩

end Cursor

namespace Recorder

variable {arguments : List Argument}

/-! ## One action -/

/-- From `r` to `r'`, the arguments that the cursor has passed are handed out. -/
def Passes (arguments : List Argument) (r r' : Recorder) : Prop :=
  ∃ q n : Nat, q + n ≤ arguments.length ∧ r.cursor = ⟨arguments, q⟩ ∧
    r'.cursor = ⟨arguments, (q + n : Nat)⟩ ∧ r'.handed = r.handed ++ (arguments.drop q).take n

theorem Passes.refl {r : Recorder} {q : Nat} (hq : q ≤ arguments.length)
    (h : r.cursor = ⟨arguments, q⟩) : Passes arguments r r :=
  ⟨q, 0, hq, h, h, by simp⟩

theorem Passes.trans {r r' r'' : Recorder} (h : Passes arguments r r')
    (h' : Passes arguments r' r'') : Passes arguments r r'' := by
  obtain ⟨q, n, -, hr, hr', hhanded⟩ := h
  obtain ⟨q', n', hle, hsame, hr'', hhanded'⟩ := h'
  obtain rfl : q + n = q' := by
    have hposition := congrArg Cursor.position (hr'.symm.trans hsame)
    simp only at hposition
    omega
  refine ⟨q, n + n', by omega, hr, by rw [hr'', Nat.add_assoc], ?_⟩
  rw [hhanded', hhanded, List.append_assoc, List.take_add, List.drop_drop]

theorem Passes.exists_position {r r' : Recorder} (h : Passes arguments r r') :
    ∃ q : Nat, q ≤ arguments.length ∧ r'.cursor = ⟨arguments, q⟩ := by
  obtain ⟨q, n, hle, -, hr', -⟩ := h
  exact ⟨q + n, hle, hr'⟩

/-- Two results are the same but for the record, which has what the cursor has passed. -/
inductive SameEnd {α : Type} (arguments : List Argument) (r : Recorder) :
    EStateM.Result BuildError Recorder α → EStateM.Result BuildError Cursor α → Prop where
  | ok (a : α) {r' : Recorder} (h : Passes arguments r r') :
    SameEnd arguments r (.ok a r') (.ok a r'.cursor)
  | error (e : BuildError) {r' : Recorder} (h : Passes arguments r r') :
    SameEnd arguments r (.error e r') (.error e r'.cursor)

theorem SameEnd.after {α : Type} {r r' : Recorder} {x : EStateM.Result BuildError Recorder α}
    {y : EStateM.Result BuildError Cursor α} (h : SameEnd arguments r' x y)
    (hr : Passes arguments r r') : SameEnd arguments r x y := by
  cases h with
  | ok a h => exact .ok a (hr.trans h)
  | error e h => exact .error e (hr.trans h)

/-- An action on a recorder does to the cursor what the other one does, and records what the cursor
passes. -/
def Records {α : Type} (x : EStateM BuildError Recorder α) (y : Scan α) : Prop :=
  ∀ (arguments : List Argument) (q : Nat) (r : Recorder), q ≤ arguments.length →
    r.cursor = ⟨arguments, q⟩ → SameEnd arguments r (x r) (y r.cursor)

namespace Records

variable {α β : Type} {x : EStateM BuildError Recorder α} {y : Scan α}

theorem pure (a : α) : Records (Pure.pure a) (Pure.pure a) :=
  fun _ _ _ hq hr => .ok a (.refl hq hr)

theorem ofExcept (v : Except BuildError α) :
    Records (MonadExcept.ofExcept v) (MonadExcept.ofExcept v) := by
  intro arguments q r hq hr
  cases v with
  | ok a => exact .ok a (.refl hq hr)
  | error e => exact .error e (.refl hq hr)

theorem bind (h : Records x y) {f : α → EStateM BuildError Recorder β} {g : α → Scan β}
    (hf : ∀ a, Records (f a) (g a)) : Records (x >>= f) (y >>= g) := by
  intro arguments q r hq hr
  change SameEnd arguments r (EStateM.bind x f r) (EStateM.bind y g r.cursor)
  rw [EStateM.bind, EStateM.bind]
  have hend := h arguments q r hq hr
  generalize x r = result, y r.cursor = result' at hend ⊢
  cases hend with
  | ok a hpasses =>
    obtain ⟨q', hq', hr'⟩ := hpasses.exists_position
    exact (hf a arguments q' _ hq' hr').after hpasses
  | error e hpasses => exact .error e hpasses

theorem mapM {f : α → EStateM BuildError Recorder β} {g : α → Scan β}
    (hf : ∀ a, Records (f a) (g a)) (xs : List α) : Records (xs.mapM f) (xs.mapM g) := by
  induction xs with
  | nil => exact pure []
  | cons a xs ih =>
    rw [List.mapM_cons, List.mapM_cons]
    exact (hf a).bind fun b => ih.bind fun bs => pure (b :: bs)

theorem leaves (h : Records x y) {r : Recorder} {q : Nat} (hq : q ≤ arguments.length)
    (hr : r.cursor = ⟨arguments, q⟩) :
    Passes arguments r (leaves x r) ∧ (QueryTemplate.leaves x r).cursor =
      QueryTemplate.leaves y r.cursor := by
  have hend := h arguments q r hq hr
  rw [QueryTemplate.leaves, QueryTemplate.leaves]
  generalize x r = result, y r.cursor = result' at hend ⊢
  cases hend with
  | ok a hpasses => exact ⟨hpasses, rfl⟩
  | error e hpasses => exact ⟨hpasses, rfl⟩

end Records

theorem records_take (marker : Text) : Records (take marker) (Cursor.take marker) := by
  intro arguments q r hq hr
  rw [take, hr]
  cases ha : arguments[q]? with
  | some a =>
    obtain ⟨hlt, -⟩ := List.getElem?_eq_some_iff.1 ha
    rw [Cursor.take_next ha]
    refine .ok a ⟨q, 1, hlt, hr, rfl, ?_⟩
    rw [List.take_one, List.head?_drop, ha]
    rfl
  | none =>
    obtain rfl : q = arguments.length := Nat.le_antisymm hq (List.getElem?_eq_none_iff.1 ha)
    rw [Cursor.take_length]
    exact .error _ ⟨_, 0, hq, hr, rfl, by simp⟩

theorem records_takeValue (marker : Text) :
    Records (takeValue marker) (Cursor.takeValue marker) :=
  (records_take marker).bind fun a => .ofExcept a.classify

theorem records_fill (ctx : Context) (p : Piece) : Records (ctx.recordFill p) (ctx.fill p) := by
  cases p with
  | char c => exact .pure [c]
  | marker m => exact (records_take m.text).bind fun a => .ofExcept (ctx.renderArgument m a)

theorem records_substitute (ctx : Context) (template : Text) :
    Records (ctx.recordSubstitute template) (ctx.substitute template) :=
  (Records.mapM (records_fill ctx) _).bind fun texts => .pure texts.flatten

/-! ## Histories -/

theorem passes_record (use : Use) {r : Recorder} {q : Nat} (hq : q ≤ arguments.length)
    (hr : r.cursor = ⟨arguments, q⟩) :
    Passes arguments r (use.record r) ∧ (use.record r).cursor = use.move r.cursor := by
  cases use with
  | take marker => exact (records_take marker).leaves hq hr
  | takeValue marker => exact (records_takeValue marker).leaves hq hr
  | substitute ctx template => exact (records_substitute ctx template).leaves hq hr

/-- **A history of uses hands out what the cursor passes**, and the recorder takes the course of the
cursor. -/
theorem passes_after (uses : List Use) {r : Recorder} {q : Nat} (hq : q ≤ arguments.length)
    (hr : r.cursor = ⟨arguments, q⟩) :
    Passes arguments r (r.after uses) ∧ (r.after uses).cursor = r.cursor.after uses := by
  induction uses generalizing r q with
  | nil => exact ⟨.refl hq hr, rfl⟩
  | cons use uses ih =>
    obtain ⟨hpasses, hcursor⟩ := passes_record use hq hr
    obtain ⟨q', hq', hr'⟩ := hpasses.exists_position
    obtain ⟨hrest, hafter⟩ := ih hq' hr'
    exact ⟨hpasses.trans hrest, hafter.trans (by rw [hcursor]; rfl)⟩

end Recorder

/-! ## A failing substitution -/

namespace Context

variable {arguments : List Argument}

theorem substitute_eq_layout (ctx : Context) (template : Text) :
    ctx.substitute template =
      ctx.substitutePieces (Layout.ofPieces (Piece.ofText template)).pieces := by
  rw [Layout.pieces_ofPieces]
  rfl

theorem Rendered.add_le_length {ctx : Context} {ms : List Marker} {texts : List Text} {n : Nat}
    (h : ctx.Rendered arguments n ms texts) (hn : n ≤ arguments.length) :
    n + ms.length ≤ arguments.length := by
  induction ms generalizing n texts with
  | nil => exact hn
  | cons m ms ih =>
    cases texts with
    | nil =>
      obtain ⟨_, _, _, _, htext⟩ := h 0 m rfl
      cases htext
    | cons t texts =>
      obtain ⟨⟨a, ha, -⟩, hrest⟩ := rendered_cons_iff.1 h
      obtain ⟨hlt, -⟩ := List.getElem?_eq_some_iff.1 ha
      have hle := ih hrest hlt
      rw [List.length_cons]
      omega

/-- Where a substitution that fails leaves the cursor: behind the last argument, when there is no
other one, or behind the argument that cannot be rendered. -/
theorem substitute_error {ctx : Context} {template : Text} {n : Nat} {e : BuildError} {c : Cursor}
    (hn : n ≤ arguments.length) (h : ctx.substitute template ⟨arguments, n⟩ = .error e c) :
    (∃ m : Marker, e = .template (.missingArgument arguments.length m.text arguments.length) ∧
      c = ⟨arguments, arguments.length⟩) ∨
    ∃ i m a, n ≤ i ∧ arguments[i]? = some a ∧ ctx.renderArgument m a = .error e ∧
      c = ⟨arguments, (i + 1 : Nat)⟩ := by
  rw [substitute_eq_layout] at h
  rcases exists_rendered_or_stop ctx arguments
    (Layout.ofPieces (Piece.ofText template)).markers n with
    ⟨texts, hr⟩ | ⟨j, m, texts, hm, hr, hstop⟩
  · rw [substitutePieces_pieces hr] at h
    cases h
  have hfill := fill_marker ctx arguments m (n + j)
  cases ha : arguments[n + j]? with
  | some a =>
    obtain ⟨e', he⟩ := hstop a ha
    rw [ha] at hfill
    simp only [he] at hfill
    rw [substitutePieces_stop hm hr hfill] at h
    obtain ⟨rfl, rfl⟩ := EStateM.Result.error.inj h
    exact .inr ⟨n + j, m, a, Nat.le_add_right n j, ha, he, rfl⟩
  | none =>
    -- the markers before have used all arguments
    have hlength : n + j = arguments.length := by
      obtain ⟨hj, -⟩ := List.getElem?_eq_some_iff.1 hm
      have hle := hr.add_le_length hn
      rw [List.length_take, Nat.min_eq_left (Nat.le_of_lt hj)] at hle
      exact Nat.le_antisymm hle (List.getElem?_eq_none_iff.1 ha)
    rw [ha] at hfill
    rw [substitutePieces_stop hm hr hfill] at h
    obtain ⟨rfl, rfl⟩ := EStateM.Result.error.inj h
    exact .inl ⟨m, by rw [hlength], by rw [hlength]⟩

theorem substitute_length (ctx : Context) {template : Text} (h : '?' ∈ template) :
    ∃ m : Marker, ctx.substitute template ⟨arguments, arguments.length⟩ =
      .error (.template (.missingArgument arguments.length m.text arguments.length))
        ⟨arguments, arguments.length⟩ := by
  have hpos := List.count_pos_iff.2 h
  rw [← (Layout.of_ofPieces template).length_markers] at hpos
  have hrendered : ctx.Rendered arguments arguments.length
      ((Layout.ofPieces (Piece.ofText template)).markers.take 0) [] := by
    intro i m hm
    cases hm
  refine ⟨(Layout.ofPieces (Piece.ofText template)).markers[0], ?_⟩
  rw [substitute_eq_layout]
  refine substitutePieces_stop (List.getElem?_eq_getElem hpos) hrendered ?_
  rw [fill_marker, Nat.add_zero, List.getElem?_eq_none (Nat.le_refl _)]

end Context

/-! ## Where a cursor gets -/

namespace Cursor

/-- A cursor that starts at `p` has got to `n`: what it has handed out, and how it goes on. -/
structure Reached (arguments : List Argument) (p : Nat) (uses : List Use) (n : Nat) : Prop where
  cursor : after ⟨arguments, p⟩ uses = ⟨arguments, n⟩
  start_le : p ≤ n
  le_length : n ≤ arguments.length
  remaining : (after ⟨arguments, p⟩ uses).remaining = (arguments.length - n : Nat)
  /-- The recorder takes the course of the cursor. -/
  recorder : (Recorder.after ⟨⟨arguments, p⟩, []⟩ uses).cursor = ⟨arguments, n⟩
  handedOut : handedOut ⟨arguments, p⟩ uses = (arguments.take n).drop p
  le_position : ∀ more, n ≤ (after ⟨arguments, p⟩ (uses ++ more)).position
  /-- Only an argument that is missing cannot be taken, and this does not move the cursor. -/
  take_error : ∀ marker e c, take marker ⟨arguments, n⟩ = .error e c →
    n = arguments.length ∧ e = .template (.missingArgument n marker n) ∧ c = ⟨arguments, n⟩
  /-- An argument that cannot be classified is used. -/
  takeValue_error : ∀ marker e c, takeValue marker ⟨arguments, n⟩ = .error e c →
    (n = arguments.length ∧ e = .template (.missingArgument n marker n) ∧ c = ⟨arguments, n⟩) ∨
    ∃ a, arguments[n]? = some a ∧ a.classify = .error e ∧ c = ⟨arguments, (n + 1 : Nat)⟩
  /-- The argument that cannot be rendered is the last one that a failing substitution uses. -/
  substitute_error : ∀ (ctx : Context) (template : Text) (e : BuildError) (c : Cursor),
    ctx.substitute template ⟨arguments, n⟩ = .error e c →
    (∃ m : Marker, e = .template (.missingArgument arguments.length m.text arguments.length) ∧
      c = ⟨arguments, arguments.length⟩) ∨
    ∃ i m a, n ≤ i ∧ arguments[i]? = some a ∧ ctx.renderArgument m a = .error e ∧
      c = ⟨arguments, (i + 1 : Nat)⟩
  /-- Behind the last argument, whatever needs one fails. -/
  at_length : n = arguments.length →
    (∀ marker, take marker ⟨arguments, n⟩ =
      .error (.template (.missingArgument n marker n)) ⟨arguments, n⟩) ∧
    (∀ marker, takeValue marker ⟨arguments, n⟩ =
      .error (.template (.missingArgument n marker n)) ⟨arguments, n⟩) ∧
    ∀ (ctx : Context) (template : Text), '?' ∈ template → ∃ m : Marker,
      ctx.substitute template ⟨arguments, n⟩ =
        .error (.template (.missingArgument n m.text n)) ⟨arguments, n⟩

theorem exists_after (arguments : List Argument) {p : Nat} (h : p ≤ arguments.length)
    (uses : List Use) : ∃ n : Nat, after ⟨arguments, p⟩ uses = ⟨arguments, n⟩ ∧ p ≤ n ∧
      n ≤ arguments.length ∧ (Recorder.after ⟨⟨arguments, p⟩, []⟩ uses).cursor = ⟨arguments, n⟩ ∧
      handedOut ⟨arguments, p⟩ uses = (arguments.take n).drop p := by
  obtain ⟨⟨q, k, hle, hq, hk, hhanded⟩, hcursor⟩ :=
    Recorder.passes_after uses (r := ⟨⟨arguments, p⟩, []⟩) h rfl
  obtain rfl : p = q := Int.natCast_inj.1 (congrArg Cursor.position hq)
  refine ⟨p + k, hcursor.symm.trans hk, Nat.le_add_right p k, hle, hk, ?_⟩
  rw [handedOut, hhanded, List.nil_append, List.drop_take, Nat.add_sub_cancel_left]

/-- **A cursor hands out each argument once and in order**, over any history of uses, whatever their
templates, markers and contexts are and whether they succeed. -/
theorem reached_after (arguments : List Argument) {p : Nat} (h : p ≤ arguments.length)
    (uses : List Use) : ∃ n, Reached arguments p uses n := by
  obtain ⟨n, hafter, hstart, hle, hrecorder, hhanded⟩ := exists_after arguments h uses
  refine ⟨n, hafter, hstart, hle, ?_, hrecorder, hhanded, fun more => ?_,
    fun _ _ _ => take_error hle, fun _ _ _ => takeValue_error hle,
    fun _ _ _ _ => Context.substitute_error hle, fun hlength => ?_⟩
  · rw [hafter, Cursor.remaining]
    simp only
    omega
  · obtain ⟨n', hmore, hle', -⟩ := exists_after arguments hle more
    rw [after, List.foldl_append, ← after, ← after, hafter, hmore]
    exact Int.ofNat_le.2 hle'
  · subst hlength
    exact ⟨take_length, takeValue_length, fun ctx _ hmark => ctx.substitute_length hmark⟩

/-- An argument that no query can hold, a string where an array has to be, and a template with a
marker too many: all but the first argument are used, each once. -/
theorem reached_after_failures :
    after ⟨[.value .skip, .foreign "object", .scalar (.text ['x']), .scalar (.int 3)], 1⟩
        [.takeValue ['?'], .substitute ⟨.builtin .mysql, {}, ['s']⟩ ['{', '?', 'a', '}', '?'],
          .substitute ⟨.builtin .mysql, {}, ['s']⟩ ['?', 'd', '?', '#'], .take ['?']] =
      ⟨[.value .skip, .foreign "object", .scalar (.text ['x']), .scalar (.int 3)], 4⟩ ∧
    handedOut ⟨[.value .skip, .foreign "object", .scalar (.text ['x']), .scalar (.int 3)], 1⟩
        [.takeValue ['?'], .substitute ⟨.builtin .mysql, {}, ['s']⟩ ['{', '?', 'a', '}', '?'],
          .substitute ⟨.builtin .mysql, {}, ['s']⟩ ['?', 'd', '?', '#'], .take ['?']] =
      [.foreign "object", .scalar (.text ['x']), .scalar (.int 3)] := by
  obtain ⟨n, h⟩ := reached_after
    [.value .skip, .foreign "object", .scalar (.text ['x']), .scalar (.int 3)] (p := 1) (by decide)
    [.takeValue ['?'], .substitute ⟨.builtin .mysql, {}, ['s']⟩ ['{', '?', 'a', '}', '?'],
      .substitute ⟨.builtin .mysql, {}, ['s']⟩ ['?', 'd', '?', '#'], .take ['?']]
  obtain rfl : 4 = n := Int.natCast_inj.1 (congrArg Cursor.position h.cursor)
  exact ⟨h.cursor, h.handedOut⟩

end Cursor

end QueryTemplate
