import QueryTemplate.Proofs.Literal
import QueryTemplate.Proofs.NumberText

/-!
# Reading lists back

A reader of the lists that array and identifier markers write. It knows nothing of the writers: it
cuts a text at each comma with a space behind it, unless the comma stands in a string literal or in
a name between back quotes. Literals are read as their dialect reads them, and an item that holds a
quote without its partner makes no list. Every element that is written passes through the reader as
one item (`Listing.Whole`), so a list reads as its elements, in order (`lists_read_back`).
-/

namespace QueryTemplate

open Literal

/-! ## The reader -/

namespace EscapeStyle

def read? : EscapeStyle → Text → Option (Text × Text)
  | backslash => readEscaped?
  | doubledQuote => readStandard?

theorem read?_quote (style : EscapeStyle) (s : Text) {rest : Text} (h : rest.head? ≠ some '\'') :
    style.read? (style.quote s ++ rest) = some (s, rest) := by
  cases style with
  | backslash =>
    rw [quote, List.append_assoc]
    exact insideEscaped?_escape s h
  | doubledQuote =>
    rw [quote, List.append_assoc]
    exact insideStandard?_escape s h

end EscapeStyle

namespace Listing

/-- The rest of a name whose opening quote is read: the name, and what follows the closing quote. -/
def insideName? : Text → Option (Text × Text)
  | [] => none
  | '\x60' :: rest => some ([], rest)
  | c :: rest => (insideName? rest).map fun (name, rest) => (c :: name, rest)

def readName? : Text → Option (Text × Text)
  | '\x60' :: rest => insideName? rest
  | _ => none

def isOpening (names : Bool) (c : Char) : Bool := c == '\'' || names && c == '\x60'

def behind? (style : EscapeStyle) (t : Text) : Option Text :=
  if t.head? = some '\x60' then (readName? t).map Prod.snd else (style.read? t).map Prod.snd

def prepend (t : Text) (items : List Text) : List Text := items.modifyHead (t ++ ·)

/-- The items of a text that is not empty; the first `inside` characters belong to a literal or a
name that has been read already. -/
def splitFrom? (style : EscapeStyle) (names : Bool) : Nat → Text → Option (List Text)
  | _, [] => some [[]]
  | inside + 1, c :: rest => (splitFrom? style names inside rest).map (prepend [c])
  | 0, ',' :: ' ' :: rest => (splitFrom? style names 0 rest).map ([] :: ·)
  | 0, c :: rest =>
    if isOpening names c then
      match behind? style (c :: rest) with
      | none => none
      | some behind =>
        (splitFrom? style names (rest.length - behind.length) rest).map (prepend [c])
    else (splitFrom? style names 0 rest).map (prepend [c])

/-- The items of a text, of which the empty text has none. -/
def split? (style : EscapeStyle) (names : Bool) (t : Text) : Option (List Text) :=
  if t.isEmpty then some [] else splitFrom? style names 0 t

def name? (item : Text) : Option Text :=
  match readName? item with
  | some (name, []) => some name
  | _ => none

/-- An item that is a name, an equality sign between two spaces, and something that is assigned. -/
def assignment? (item : Text) : Option (Text × Text) :=
  match readName? item with
  | some (name, ' ' :: '=' :: ' ' :: literal) => some (name, literal)
  | _ => none

/-- The names in a list of names. -/
def readNames? (style : EscapeStyle) (t : Text) : Option (List Text) :=
  (split? style true t).bind fun items => items.mapM name?

/-- The names in a list of assignments, each with what is assigned to it. -/
def readAssignments? (style : EscapeStyle) (t : Text) : Option (List (Text × Text)) :=
  (split? style true t).bind fun items => items.mapM assignment?

variable {style : EscapeStyle} {names : Bool} {c : Char} {t t' rest name : Text}

theorem prepend_nil (items : List Text) : prepend [] items = items := by
  cases items <;> rfl

theorem prepend_append (t t' : Text) (items : List Text) :
    prepend (t ++ t') items = prepend t (prepend t' items) := by
  cases items with
  | nil => rfl
  | cons item items => exact congrArg (· :: items) (List.append_assoc t t' item)

theorem map_prepend (t t' : Text) (r : Option (List Text)) :
    (r.map (prepend t')).map (prepend t) = r.map (prepend (t ++ t')) := by
  rw [Option.map_map]
  congr 1
  funext items
  exact (prepend_append t t' items).symm

theorem splitFrom?_cons (hcomma : c ≠ ',') :
    splitFrom? style names 0 (c :: rest) =
      if isOpening names c then
        match behind? style (c :: rest) with
        | none => none
        | some behind =>
          (splitFrom? style names (rest.length - behind.length) rest).map (prepend [c])
      else (splitFrom? style names 0 rest).map (prepend [c]) := by
  rw [splitFrom?]
  rintro r rfl
  exact absurd rfl hcomma

/-- The items that are read, if any, joined again, are the text. -/
def Spells (r : Option (List Text)) (t : Text) : Prop :=
  ∀ items ∈ r, items ≠ [] ∧ Text.commaSeparated items = t

theorem Spells.prepend {r : Option (List Text)} (h : Spells r t) (c : Char) :
    Spells (r.map (Listing.prepend [c])) (c :: t) := by
  intro items hitems
  obtain ⟨items', hitems', rfl⟩ := Option.map_eq_some_iff.1 hitems
  obtain ⟨hne, rfl⟩ := h items' hitems'
  obtain ⟨item, rest, rfl⟩ := List.exists_cons_of_ne_nil hne
  refine ⟨List.cons_ne_nil _ _, ?_⟩
  cases rest with
  | nil => simp [Listing.prepend, Text.commaSeparated_singleton]
  | cons item' rest => simp [Listing.prepend, Text.commaSeparated_cons_cons]

theorem Spells.separator {r : Option (List Text)} (h : Spells r t) :
    Spells (r.map ([] :: ·)) (',' :: ' ' :: t) := by
  intro items hitems
  obtain ⟨items', hitems', rfl⟩ := Option.map_eq_some_iff.1 hitems
  obtain ⟨hne, rfl⟩ := h items' hitems'
  obtain ⟨item, rest, rfl⟩ := List.exists_cons_of_ne_nil hne
  exact ⟨List.cons_ne_nil _ _, Text.commaSeparated_cons_cons [] item rest⟩

/-- **The reader cuts and does nothing else.** -/
theorem spells_splitFrom? (style : EscapeStyle) (names : Bool) (inside : Nat) (t : Text) :
    Spells (splitFrom? style names inside t) t := by
  fun_induction splitFrom? style names inside t with
  | case1 =>
    intro items hitems
    obtain rfl := Option.some.inj hitems
    exact ⟨List.cons_ne_nil _ _, rfl⟩
  | case2 inside c rest ih => exact ih.prepend c
  | case3 rest ih => exact ih.separator
  | case4 => exact fun _ h => nomatch h
  | case5 c rest _ _ behind _ ih => exact ih.prepend c
  | case6 c rest _ _ ih => exact ih.prepend c

/-- A comma in a literal does not cut, and a literal without its end makes no list. -/
example : split? .doubledQuote false ['1', ',', ' ', '\'', ',', ' ', '\''] =
      some [['1'], ['\'', ',', ' ', '\'']] ∧
    split? .doubledQuote false ['\'', ',', ' '] = none := by decide

/-! ## What passes through the reader -/

/-- The reader takes `t` as a part of the first item when `rest` follows. -/
def Passes (style : EscapeStyle) (names : Bool) (t rest : Text) : Prop :=
  splitFrom? style names 0 (t ++ rest) = (splitFrom? style names 0 rest).map (prepend t)

/-- A text that the reader takes as a part of an item, whatever follows, another quote apart. -/
def Whole (style : EscapeStyle) (names : Bool) (t : Text) : Prop :=
  ∀ rest, rest.head? ≠ some '\'' → Passes style names t rest

theorem Passes.append (h : Passes style names t (t' ++ rest)) (h' : Passes style names t' rest) :
    Passes style names (t ++ t') rest := by
  unfold Passes at *
  rw [List.append_assoc, h, h', map_prepend]

def Plain (t : Text) : Prop := ∀ c ∈ t, c ∉ [',', '\'', '\x60']

instance (t : Text) : Decidable (Plain t) := List.decidableBAll _ t

theorem passes_plain (h : Plain t) : Passes style names t rest := by
  unfold Passes
  induction t with
  | nil =>
    have hid : prepend [] = id := funext prepend_nil
    rw [hid, Option.map_id_fun]
    rfl
  | cons c t ih =>
    obtain ⟨hc, ht⟩ := List.forall_mem_cons.1 h
    simp only [List.mem_cons, List.not_mem_nil, or_false, not_or] at hc
    have hplain : isOpening names c = false := by simp [isOpening, hc]
    rw [List.cons_append, splitFrom?_cons hc.1, hplain, ih ht]
    exact map_prepend [c] t _

theorem splitFrom?_length (t rest : Text) :
    splitFrom? style names t.length (t ++ rest) =
      (splitFrom? style names 0 rest).map (prepend t) := by
  induction t with
  | nil => exact passes_plain (t := []) (by decide)
  | cons c t ih =>
    rw [List.length_cons, List.cons_append, splitFrom?, ih]
    exact map_prepend [c] t _

theorem passes_opening (hc : isOpening names c)
    (h : behind? style (c :: (t ++ rest)) = some rest) : Passes style names (c :: t) rest := by
  have hcomma : c ≠ ',' := by
    rintro rfl
    simp [isOpening] at hc
  have hlength : (t ++ rest).length - rest.length = t.length := by simp
  unfold Passes
  rw [List.cons_append, splitFrom?_cons hcomma, if_pos hc, h]
  show (splitFrom? style names ((t ++ rest).length - rest.length) (t ++ rest)).map _ = _
  rw [hlength, splitFrom?_length]
  exact map_prepend [c] t _

theorem passes_quote (s : Text) (h : rest.head? ≠ some '\'') :
    Passes style names (style.quote s) rest := by
  have hread := style.read?_quote s h
  apply passes_opening rfl
  rw [behind?, if_neg (by simp)]
  exact congrArg (Option.map Prod.snd) hread

theorem insideName?_append (h : '\x60' ∉ name) :
    insideName? (name ++ '\x60' :: rest) = some (name, rest) := by
  induction name with
  | nil => rfl
  | cons c name ih =>
    rw [List.mem_cons, not_or] at h
    rw [List.cons_append, insideName?, ih h.2]
    · rfl
    · exact fun hc => h.1 hc.symm

theorem readName?_backQuoted (h : '\x60' ∉ name) :
    readName? (Text.backQuoted name ++ rest) = some (name, rest) := by
  rw [Text.backQuoted, List.cons_append, List.cons_append, List.append_assoc]
  exact insideName?_append h

theorem passes_backQuoted (h : '\x60' ∉ name) : Passes style true (Text.backQuoted name) rest := by
  have hread : readName? (Text.backQuoted name ++ rest) = some (name, rest) := readName?_backQuoted h
  apply passes_opening rfl
  rw [behind?, if_pos (by rfl)]
  exact congrArg (Option.map Prod.snd) hread

theorem splitFrom?_commaSeparated {items : List Text} (hne : items ≠ [])
    (h : ∀ item ∈ items, Whole style names item) :
    splitFrom? style names 0 (Text.commaSeparated items) = some items := by
  induction items with
  | nil => exact absurd rfl hne
  | cons item items ih =>
    rw [List.forall_mem_cons] at h
    obtain ⟨hitem, hitems⟩ := h
    cases items with
    | nil =>
      have hlast : splitFrom? style names 0 (item ++ []) = _ := hitem [] (by decide)
      simpa [Text.commaSeparated_singleton, prepend, splitFrom?] using hlast
    | cons item' items =>
      rw [Text.commaSeparated_cons_cons, hitem _ (by simp), splitFrom?,
        ih (List.cons_ne_nil _ _) hitems]
      simp [prepend]

theorem split?_commaSeparated {items : List Text}
    (h : ∀ item ∈ items, item ≠ [] ∧ Whole style names item) :
    split? style names (Text.commaSeparated items) = some items := by
  cases items with
  | nil => rfl
  | cons item items =>
    have hsplit := splitFrom?_commaSeparated (List.cons_ne_nil _ _) fun i hi => (h i hi).2
    have hfirst : item ≠ [] := (h item List.mem_cons_self).1
    have hne : Text.commaSeparated (item :: items) ≠ [] := by
      cases items with
      | nil => rwa [Text.commaSeparated_singleton]
      | cons item' items =>
        rw [Text.commaSeparated_cons_cons]
        exact List.append_ne_nil_of_left_ne_nil hfirst _
    rw [split?, if_neg (by simpa using hne), hsplit]

/-! ## Reading what was written -/

variable {α β ε : Type} {w : β → Text}

theorem mapM_written {p : Text → Option β} {vs : List β} (h : ∀ v ∈ vs, p (w v) = some v) :
    (vs.map w).mapM p = some vs := by
  induction vs with
  | nil => rfl
  | cons v vs ih =>
    rw [List.forall_mem_cons] at h
    rw [List.map_cons, List.mapM_cons, h.1, ih h.2]
    rfl

theorem mapM_cases (g : α → Except ε β) (w : β → Text) (xs : List α) :
    (∃ vs, xs.mapM g = .ok vs ∧ xs.mapM (fun x => (g x).map w) = .ok (vs.map w) ∧
      ∀ v ∈ vs, ∃ x ∈ xs, g x = .ok v) ∨
    ∃ e, xs.mapM g = .error e ∧ xs.mapM (fun x => (g x).map w) = .error e := by
  induction xs with
  | nil => exact .inl ⟨[], rfl, rfl, by simp⟩
  | cons x xs ih =>
    rw [List.mapM_cons, List.mapM_cons]
    cases hx : g x with
    | error e => exact .inr ⟨e, rfl, rfl⟩
    | ok v =>
      rcases ih with ⟨vs, hvs, hws, hmem⟩ | ⟨e, hvs, hws⟩
      · refine .inl ⟨v :: vs, by rw [hvs]; rfl, by rw [hws]; rfl, ?_⟩
        rw [List.forall_mem_cons]
        refine ⟨⟨x, List.mem_cons_self, hx⟩, fun v' hv' => ?_⟩
        obtain ⟨x', hx', hg⟩ := hmem v' hv'
        exact ⟨x', List.mem_cons_of_mem _ hx', hg⟩
      · exact .inr ⟨e, by rw [hvs]; rfl, by rw [hws]; rfl⟩

theorem read_written {g : α → Except ε β} {xs : List α} {r : Text → Option (List β)}
    (h : ∀ vs, (∀ v ∈ vs, ∃ x ∈ xs, g x = .ok v) →
      r (Text.commaSeparated (vs.map w)) = some vs) :
    ((xs.mapM fun x => (g x).map w).map Text.commaSeparated).map r = (xs.mapM g).map some := by
  rcases mapM_cases g w xs with ⟨vs, hvs, hws, hmem⟩ | ⟨e, hvs, hws⟩
  · rw [hvs, hws]
    exact congrArg Except.ok (h vs hmem)
  · rw [hvs, hws]
    rfl

theorem readNames?_commaSeparated {vs : List Text} (h : ∀ v ∈ vs, '\x60' ∉ v) :
    readNames? style (Text.commaSeparated (vs.map Text.backQuoted)) = some vs := by
  have hitems : ∀ item ∈ vs.map Text.backQuoted, item ≠ [] ∧ Whole style true item := by
    rw [List.forall_mem_map]
    intro v hv
    exact ⟨List.cons_ne_nil _ _, fun rest _ => passes_backQuoted (h v hv)⟩
  rw [readNames?, split?_commaSeparated hitems]
  apply mapM_written
  intro v hv
  have hread : readName? (Text.backQuoted v ++ []) = some (v, []) := readName?_backQuoted (h v hv)
  rw [List.append_nil] at hread
  rw [name?, hread]

theorem readNames?_written {g : α → Except ε Text} {xs : List α}
    (h : ∀ x ∈ xs, ∀ t, g x = .ok t → '\x60' ∉ t) :
    ((xs.mapM fun x => (g x).map Text.backQuoted).map Text.commaSeparated).map
      (readNames? style) = (xs.mapM g).map some := by
  apply read_written
  intro vs hvs
  apply readNames?_commaSeparated
  intro v hv
  obtain ⟨x, hx, hg⟩ := hvs v hv
  exact h x hx v hg

def assignmentText (entry : Text × Text) : Text :=
  Text.backQuoted entry.1 ++ [' ', '=', ' '] ++ entry.2

theorem readAssignments?_commaSeparated {vs : List (Text × Text)} (h : ∀ v ∈ vs, '\x60' ∉ v.1)
    (hwhole : ∀ v ∈ vs, Whole style true v.2) :
    readAssignments? style (Text.commaSeparated (vs.map assignmentText)) = some vs := by
  have hitems : ∀ item ∈ vs.map assignmentText, item ≠ [] ∧ Whole style true item := by
    rw [List.forall_mem_map]
    intro v hv
    refine ⟨List.cons_ne_nil _ _, fun rest hrest => ?_⟩
    have hliteral := hwhole v hv rest hrest
    have hsign : Passes style true [' ', '=', ' '] (v.2 ++ rest) := passes_plain (by decide)
    rw [assignmentText, List.append_assoc]
    exact (passes_backQuoted (h v hv)).append (hsign.append hliteral)
  rw [readAssignments?, split?_commaSeparated hitems]
  apply mapM_written
  intro v hv
  rw [assignment?, assignmentText, List.append_assoc, readName?_backQuoted (h v hv)]
  rfl

end Listing

/-! ## Lists of scalars -/

open Listing

theorem Text.OfNumber.plain {t : Text} (h : OfNumber t) : Plain t := by
  intro c hc hmem
  have hnumber := h c hc
  simp only [List.mem_cons, List.not_mem_nil, or_false] at hmem
  rcases hmem with rfl | rfl | rfl <;> exact absurd hnumber (by decide)

namespace Context

variable {ctx : Context} {b : Builtin}

theorem whole_scalarLiteral (hescaper : ctx.escaper = .builtin b) (names : Bool) {s : Scalar}
    {t : Text} (h : ctx.scalarLiteral s = .ok t) : t ≠ [] ∧ Whole b.style names t := by
  cases s with
  | null =>
    obtain rfl := Except.ok.inj h
    exact ⟨by decide, fun _ _ => passes_plain (by decide)⟩
  | bool v =>
    obtain rfl := Except.ok.inj h
    cases v with
    | false => exact ⟨by decide, fun _ _ => passes_plain (by decide)⟩
    | true => exact ⟨by decide, fun _ _ => passes_plain (by decide)⟩
  | int n => exact ⟨integerText_ne_nil h, fun _ _ => passes_plain (ofNumber_integerText h).plain⟩
  | float x =>
    obtain rfl := Except.ok.inj h
    exact ⟨literalText_ne_nil _ x, fun _ _ => passes_plain (ofNumber_literalText _ x).plain⟩
  | text s =>
    rw [scalarLiteral, hescaper] at h
    obtain rfl := Except.ok.inj h
    exact ⟨List.cons_ne_nil _ _, fun _ hrest => passes_quote s hrest⟩

theorem assignment_eq (entry : Text × Scalar) :
    ctx.assignment entry = ((ctx.scalarLiteral entry.2).map (entry.1, ·)).map assignmentText := by
  rw [assignment]
  cases ctx.scalarLiteral entry.2 <;> rfl

theorem split?_sequence (hescaper : ctx.escaper = .builtin b) (items : List Scalar) :
    (ctx.array (.datum (.sequence items))).map (split? b.style false) =
      (items.mapM ctx.scalarLiteral).map some := by
  have hid : ∀ s, (ctx.scalarLiteral s).map id = ctx.scalarLiteral s := by
    intro s
    cases ctx.scalarLiteral s <;> rfl
  have hread : ((items.mapM fun s => (ctx.scalarLiteral s).map id).map Text.commaSeparated).map
      (split? b.style false) = (items.mapM ctx.scalarLiteral).map some := by
    apply read_written
    intro vs hvs
    rw [List.map_id]
    apply split?_commaSeparated
    intro v hv
    obtain ⟨s, -, hliteral⟩ := hvs v hv
    exact whole_scalarLiteral hescaper false hliteral
  rwa [funext hid] at hread

theorem readAssignments?_mapping (hescaper : ctx.escaper = .builtin b)
    {entries : Table Text Scalar} (h : ∀ entry ∈ entries, '\x60' ∉ entry.1) :
    (ctx.array (.datum (.mapping entries))).map (readAssignments? b.style) =
      (entries.mapM fun entry => (ctx.scalarLiteral entry.2).map (entry.1, ·)).map some := by
  rw [array, funext assignment_eq]
  apply read_written
  intro vs hvs
  have hentries : ∀ v ∈ vs, '\x60' ∉ v.1 ∧ Whole b.style true v.2 := by
    intro v hv
    obtain ⟨entry, hentry, hv⟩ := hvs v hv
    cases ht : ctx.scalarLiteral entry.2 with
    | error e =>
      rw [ht] at hv
      cases hv
    | ok t =>
      rw [ht] at hv
      obtain rfl := Except.ok.inj hv
      exact ⟨h entry hentry, (whole_scalarLiteral hescaper true ht).2⟩
  exact readAssignments?_commaSeparated (fun v hv => (hentries v hv).1)
    fun v hv => (hentries v hv).2

theorem scalarLiteral_and_name (hescaper : ctx.escaper = .builtin b) (s : Scalar) :
    (s.Writable → (∃ t, ctx.scalarLiteral s = .ok t) ∧ ∃ t, ctx.name s = .ok t) ∧
    (¬s.Writable → ctx.scalarLiteral s = .error .unwritableInteger ∧
      ctx.name s = .error .unwritableInteger) := by
  cases s with
  | int n =>
    have hiff : (Scalar.int n).Writable ↔ (Text.ofNat n.natAbs).length ≤ digitLimit := by
      simp [Scalar.Writable]
    rw [hiff, scalarLiteral, name, integerText]
    constructor
    · intro h
      rw [if_pos h]
      exact ⟨⟨_, rfl⟩, _, rfl⟩
    · intro h
      rw [if_neg h]
      exact ⟨rfl, rfl⟩
  | text t =>
    have hwritable : (Scalar.text t).Writable := by
      intro n hn
      cases hn
    rw [scalarLiteral, hescaper]
    exact ⟨fun _ => ⟨⟨_, rfl⟩, _, rfl⟩, fun h => absurd hwritable h⟩
  | _ =>
    refine ⟨fun _ => ⟨⟨_, rfl⟩, _, rfl⟩, fun h => absurd ?_ h⟩
    intro n hn
    cases hn

end Context

/-- **Lists read back.** Under the built-in escapers, and whatever the number of digits, the reader
cuts an indexed array into the literals of its elements, an associative array into its keys with the
literals of their values, and a list of names into the names, if no key and no name holds a back
quote. The reader only cuts; a list fails like the first of its elements that fails, and only an
integer with too many digits does. -/
theorem lists_read_back (b : Builtin) (settings : Settings) (skipMarker : Text) :
    let ctx : Context := ⟨.builtin b, settings, skipMarker⟩
    let literal (s : Scalar) := ctx.literal (.datum (.scalar s))
    (∀ items : List Scalar,
      (ctx.array (.datum (.sequence items))).map (split? b.style false) =
        (items.mapM literal).map some) ∧
    ctx.array (.datum (.sequence [])) = .ok [] ∧
    (∀ entries : Table Text Scalar, (∀ entry ∈ entries, '\x60' ∉ entry.1) →
      (ctx.array (.datum (.mapping entries))).map (readAssignments? b.style) =
        (entries.mapM fun entry => (literal entry.2).map (entry.1, ·)).map some) ∧
    (∀ items : List Scalar, (∀ s ∈ items, ∀ t, ctx.name s = .ok t → '\x60' ∉ t) →
      (ctx.identifiers (.datum (.sequence items))).map (readNames? b.style) =
        (items.mapM ctx.name).map some) ∧
    (∀ entries : Table Text Scalar,
      (∀ entry ∈ entries, ∀ t, ctx.name entry.2 = .ok t → '\x60' ∉ t) →
      (ctx.identifiers (.datum (.mapping entries))).map (readNames? b.style) =
        (entries.mapM fun entry => ctx.name entry.2).map some) ∧
    (∀ names t items, split? b.style names t = some items → Text.commaSeparated items = t) ∧
    ∀ s : Scalar,
      (s.Writable → (∃ t, literal s = .ok t) ∧ ∃ t, ctx.name s = .ok t) ∧
      (¬s.Writable → literal s = .error .unwritableInteger ∧
        ctx.name s = .error .unwritableInteger) := by
  intro ctx literal
  have hescaper : ctx.escaper = .builtin b := rfl
  refine ⟨ctx.split?_sequence hescaper, rfl,
    fun _ => Context.readAssignments?_mapping hescaper, fun _ => readNames?_written,
    fun _ => readNames?_written, fun names t items h => ?_, ctx.scalarLiteral_and_name hescaper⟩
  rw [split?] at h
  split at h
  · rename_i hempty
    obtain rfl := Option.some.inj h
    exact (List.isEmpty_iff.1 hempty).symm
  · exact (spells_splitFrom? b.style names 0 t items h).2

/-- Strings that look like the ends of literals, separators, names and assignments. -/
theorem lists_read_back_separators :
    let ctx : Context := ⟨.builtin .mysql, {}, []⟩
    (ctx.array (.datum (.sequence [.text ['\'', ',', ' ', '\\'], .null, .text [',', ' ']]))).map
        (split? .backslash false) =
      .ok (some [['\'', '\\', '\'', ',', ' ', '\\', '\\', '\''], "NULL".toList,
        ['\'', ',', ' ', '\'']]) ∧
    (ctx.array (.datum (.mapping [([' ', '=', ' ', '\''], .text ['\x60', ',', ' ', '\x60']),
        ([',', ' '], .bool true)]))).map (readAssignments? .backslash) =
      .ok (some [([' ', '=', ' ', '\''], ['\'', '\x60', ',', ' ', '\x60', '\'']),
        ([',', ' '], ['1'])]) ∧
    (ctx.identifiers (.datum (.sequence [.text ['a', ',', ' ', '\''], .null]))).map
        (readNames? .backslash) =
      .ok (some [['a', ',', ' ', '\''], []]) ∧
    (ctx.identifiers (.datum (.mapping [(['k'], .text [' ', '=', ' '])]))).map
        (readNames? .backslash) =
      .ok (some [[' ', '=', ' ']]) := by
  obtain ⟨hsequence, -, hmapping, hnames, hvalues, -⟩ := lists_read_back .mysql {} []
  refine ⟨(hsequence _).trans (by rfl), (hmapping _ (by decide)).trans (by rfl),
    (hnames _ ?_).trans (by rfl), (hvalues _ ?_).trans (by rfl)⟩
  · intro s hs t ht
    simp only [List.mem_cons, List.not_mem_nil, or_false] at hs
    rcases hs with rfl | rfl <;> obtain rfl := Except.ok.inj ht <;> decide
  · intro entry hentry t ht
    obtain rfl := List.mem_singleton.1 hentry
    obtain rfl := Except.ok.inj ht
    decide

end QueryTemplate
