import QueryTemplate.Proofs.Classification
import QueryTemplate.Proofs.SpelledInteger
import QueryTemplate.Query.Handler

/-!
# Reading settings

Settings are read from a mapping exactly when every name in it is a setting that accepts what is set
under it (`Settings.Accepts`), and then they hold what is set and the defaults elsewhere
(`Settings.Reads`). Otherwise the first name is blamed that offends, in an order that puts the
settings before the unknown names (`Settings.FirstOffending`). All this depends on the entries and
on the order of the unknown names, and on nothing else.
-/

namespace QueryTemplate

namespace Settings

/-! ## What a mapping asks for -/

/-- What may be set under a name. Under an unknown name nothing may be set. -/
def Accepts (name : String) (a : Argument) : Prop :=
  match name with
  | "dialect" => ∃ t : Text, a = .scalar (.text t)
  | "skip_literal" => ∃ t : Text, t ≠ [] ∧ a = .scalar (.text t)
  | "float_precision" => ∃ n : Int, a.GivesInteger n ∧ 1 ≤ n ∧ n ≤ 17
  | _ => False

def Holds (s : Settings) (name : String) (a : Argument) : Prop :=
  match name with
  | "dialect" => a = .scalar (.text s.dialect.toList)
  | "skip_literal" => a = .scalar (.text s.skipLiteral)
  | "float_precision" => a.GivesInteger s.precision.digits
  | _ => False

def defaults : Table String Argument :=
  [("dialect", .scalar (.text "mysql".toList)),
    ("skip_literal", .scalar (.text "SKIP_BLOCK".toList)), ("float_precision", .scalar (.int 14))]

section Mapping

variable (m : Table String Argument)

/-- Settings hold what a mapping sets, and the defaults elsewhere. -/
structure Reads (s : Settings) : Prop where
  given : ∀ name a, (name, a) ∈ m → Holds s name a
  absent : ∀ name a, (name, a) ∈ defaults → name ∉ m.keys → Holds s name a

/-- A mapping sets something under a name that may not be set there. -/
def Offends (name : String) : Prop := ∃ a, (name, a) ∈ m ∧ ¬Accepts name a

def unknownNames : List String := m.keys.filter (· ∉ fields)

/-- No name before offends, where the settings come first and then the unknown names. -/
def FirstOffending (name : String) : Prop :=
  Offends m name ∧ ∃ before after, fields ++ unknownNames m = before ++ name :: after ∧
    ∀ other ∈ before, ¬Offends m other

def named : List (Scalar × Argument) := m.map fun entry => (key entry.1, entry.2)

end Mapping

theorem Accepts.mem_fields {name : String} {a : Argument} (h : Accepts name a) : name ∈ fields := by
  unfold Accepts at h
  split at h <;> simp_all [fields]

theorem Holds.accepts {s : Settings} {name : String} {a : Argument} (h : Holds s name a) :
    Accepts name a := by
  unfold Holds at h
  unfold Accepts
  split at h
  · exact ⟨_, h⟩
  · exact ⟨_, s.skipLiteral_ne_nil, h⟩
  · have hone := s.precision.one_le
    have hseventeen := s.precision.le_seventeen
    exact ⟨_, h, by omega, by omega⟩
  · exact h

/-! ## One setting -/

theorem dialect_eq_some_iff {a : Argument} {v : String} :
    (text? a).map String.ofList = some v ↔ a = .scalar (.text v.toList) := by
  rw [Option.map_eq_some_iff]
  constructor
  · rintro ⟨t, ht, rfl⟩
    unfold text? at ht
    split at ht
    · rw [Option.some.inj ht, String.toList_ofList]
    · cases ht
  · rintro rfl
    exact ⟨_, rfl, String.ofList_toList⟩

theorem nonemptyText?_eq_some_iff {a : Argument} {v : { t : Text // t ≠ [] }} :
    nonemptyText? a = some v ↔ a = .scalar (.text v.1) := by
  rw [nonemptyText?, Option.bind_eq_some_iff]
  constructor
  · rintro ⟨t, ht, hv⟩
    unfold text? at ht
    split at ht
    · split at hv
      · rw [← Option.some.inj hv, Option.some.inj ht]
      · cases hv
    · cases ht
  · rintro rfl
    exact ⟨v.1, rfl, dif_pos v.2⟩

theorem key_inj {name other : String} : key name = key other ↔ name = other := by
  rw [key, key, Scalar.text.injEq, String.toList_inj]

theorem get?_named (m : Table String Argument) (name : String) :
    Table.get? (named m) (key name) = Table.get? m name := by
  induction m with
  | nil => rfl
  | cons entry m ih =>
    simp only [named, List.map_cons, Table.get?, key_inj]
    rw [← ih]
    rfl

/-- How a setting is read: what is set there is accepted, or the setting offends. -/
inductive FieldOutcome {α : Type} (m : Table String Argument) (name : String) (default : α)
    (read : Argument → Option α) : Except ConfigError α → Prop where
  | ok {v : α} (h : ¬Offends m name) (hgiven : ∀ a, (name, a) ∈ m → read a = some v)
    (habsent : name ∉ m.keys → v = default) : FieldOutcome m name default read (.ok v)
  | error (h : Offends m name) :
    FieldOutcome m name default read (.error (.invalidSetting name))

theorem fieldOutcome {α : Type} {m : Table String Argument} (h : m.keys.Nodup) {name : String}
    (default : α) {read : Argument → Option α}
    (hread : ∀ a, Accepts name a ↔ ∃ v, read a = some v) :
    FieldOutcome m name default read (field (named m) name default read) := by
  rw [field, get?_named]
  cases ha : m.get? name with
  | none =>
    have hnot : ∀ a, (name, a) ∉ m := by
      intro a hmem
      rw [Table.mem_iff_get? h, ha] at hmem
      cases hmem
    exact .ok (fun ⟨a, hmem, _⟩ => hnot a hmem) (fun a hmem => absurd hmem (hnot a)) fun _ => rfl
  | some a =>
    have hmem : ∀ a', (name, a') ∈ m ↔ a = a' := by
      intro a'
      rw [Table.mem_iff_get? h, ha, Option.some.injEq]
    simp only
    cases hv : read a with
    | none =>
      refine .error ⟨a, (hmem a).2 rfl, fun haccepts => ?_⟩
      obtain ⟨v, hsome⟩ := (hread a).1 haccepts
      rw [hv] at hsome
      cases hsome
    | some v =>
      refine .ok ?_ ?_ ?_
      · rintro ⟨a', hmem', hnot⟩
        obtain rfl := (hmem a').1 hmem'
        exact hnot ((hread a).2 ⟨v, hv⟩)
      · intro a' hmem'
        rw [← (hmem a').1 hmem', hv]
      · intro habsent
        exact absurd (List.mem_map_of_mem (f := Prod.fst) ((hmem a).2 rfl)) habsent

theorem accepts_dialect_iff (a : Argument) :
    Accepts "dialect" a ↔ ∃ v, (text? a).map String.ofList = some v := by
  simp only [dialect_eq_some_iff]
  constructor
  · rintro ⟨t, rfl⟩
    exact ⟨String.ofList t, by rw [String.toList_ofList]⟩
  · rintro ⟨v, rfl⟩
    exact ⟨v.toList, rfl⟩

theorem accepts_skipLiteral_iff (a : Argument) :
    Accepts "skip_literal" a ↔ ∃ v, nonemptyText? a = some v := by
  simp only [nonemptyText?_eq_some_iff, Subtype.exists, exists_prop]
  exact Iff.rfl

theorem accepts_precision_iff (a : Argument) :
    Accepts "float_precision" a ↔ ∃ p, Precision.ofArgument? a = some p := by
  simp only [Precision.ofArgument?_eq_some_iff]
  constructor
  · rintro ⟨n, hn, hone, hseventeen⟩
    refine ⟨⟨n.toNat, by omega, by omega⟩, ?_⟩
    rwa [Int.toNat_of_nonneg (by omega)]
  · rintro ⟨p, hp⟩
    have hone := p.one_le
    have hseventeen := p.le_seventeen
    exact ⟨p.digits, hp, by omega, by omega⟩

/-! ## All settings -/

theorem unknownKey?_named (m : Table String Argument) :
    unknownKey? (named m) = (unknownNames m).head?.map key := by
  have hkeys : Table.keys (named m) = m.keys.map key := by
    simp [Table.keys, named]
  have hknown : ∀ name, (fields.map key).contains (key name) = decide (name ∈ fields) := by
    intro name
    simp [List.contains_eq_mem, key_inj]
  rw [unknownKey?, hkeys, List.find?_map, unknownNames, List.head?_filter]
  simp only [Function.comp_def, hknown, decide_not]

theorem location_key (name : String) : location (key name) = name := String.ofList_toList

inductive ReadOutcome (m : Table String Argument) : Except ConfigError Settings → Prop where
  | ok {s : Settings} (hreads : Reads m s) (h : ∀ name, ¬Offends m name) : ReadOutcome m (.ok s)
  | error {name : String} (h : FirstOffending m name) :
    ReadOutcome m (.error (.invalidSetting name))

theorem Offends.mem_fields_or {m : Table String Argument} {name : String} (h : Offends m name) :
    name ∈ fields ∨ name ∈ unknownNames m := by
  obtain ⟨a, hmem, -⟩ := h
  by_cases hname : name ∈ fields
  · exact .inl hname
  · exact .inr (List.mem_filter.2 ⟨List.mem_map_of_mem (f := Prod.fst) hmem, by simpa using hname⟩)

theorem offends_of_mem_unknownNames {m : Table String Argument} {name : String}
    (h : name ∈ unknownNames m) : Offends m name := by
  obtain ⟨hmem, hname⟩ := List.mem_filter.1 h
  obtain ⟨⟨name, a⟩, hentry, rfl⟩ := List.mem_map.1 hmem
  exact ⟨a, hentry, fun haccepts => of_decide_eq_true hname haccepts.mem_fields⟩

theorem not_offends_of_fields {m : Table String Argument}
    (hfields : ∀ name ∈ fields, ¬Offends m name) (hunknown : unknownNames m = []) (name : String) :
    ¬Offends m name := by
  intro hoffends
  rcases hoffends.mem_fields_or with hname | hname
  · exact hfields name hname hoffends
  · rw [hunknown] at hname
    cases hname

theorem mem_fields_of_not_offends {m : Table String Argument} {name : String} {a : Argument}
    (h : ¬Offends m name) (hmem : (name, a) ∈ m) : name ∈ fields := by
  by_contra hname
  exact h ⟨a, hmem, fun haccepts => hname haccepts.mem_fields⟩

/-- **Each setting is looked at in turn, and then the unknown names.** -/
theorem readOutcome {m : Table String Argument} (h : m.keys.Nodup) :
    ReadOutcome m (ofEntries (named m)) := by
  have hdialect := fieldOutcome h default.dialect accepts_dialect_iff
  have hskip := fieldOutcome h ⟨default.skipLiteral, default.skipLiteral_ne_nil⟩
    accepts_skipLiteral_iff
  have hprecision := fieldOutcome h default.precision accepts_precision_iff
  rw [ofEntries]
  generalize field (named m) "dialect" _ _ = dialect, field (named m) "skip_literal" _ _ = skip,
    field (named m) "float_precision" _ _ = precision at hdialect hskip hprecision ⊢
  -- a setting is read only when those before it are accepted
  cases hdialect with
  | error hoffends => exact .error ⟨hoffends, [], _, rfl, nofun⟩
  | @ok v₁ h₁ hgiven₁ habsent₁ =>
    cases hskip with
    | error hoffends => exact .error ⟨hoffends, ["dialect"], _, rfl, by simpa using h₁⟩
    | @ok v₂ h₂ hgiven₂ habsent₂ =>
      cases hprecision with
      | error hoffends =>
        exact .error ⟨hoffends, ["dialect", "skip_literal"], _, rfl, by simpa using ⟨h₁, h₂⟩⟩
      | @ok v₃ h₃ hgiven₃ habsent₃ =>
        have hfields : ∀ name ∈ fields, ¬Offends m name := by simpa [fields] using ⟨h₁, h₂, h₃⟩
        simp only [bind, Except.bind]
        rw [unknownKey?_named]
        cases hunknown : unknownNames m with
        | cons name rest =>
          have hoffends : Offends m name :=
            offends_of_mem_unknownNames (by rw [hunknown]; exact List.mem_cons_self)
          simp only [List.head?_cons, Option.map_some, location_key]
          exact .error ⟨hoffends, fields, rest, by rw [hunknown], hfields⟩
        | nil =>
          have hnone := not_offends_of_fields hfields hunknown
          refine .ok ⟨fun name a hmem => ?_, fun name a hmem habsent => ?_⟩ hnone
          · have hname := mem_fields_of_not_offends (hnone name) hmem
            simp only [fields, List.mem_cons, List.not_mem_nil, or_false] at hname
            rcases hname with rfl | rfl | rfl
            · exact dialect_eq_some_iff.1 (hgiven₁ a hmem)
            · exact nonemptyText?_eq_some_iff.1 (hgiven₂ a hmem)
            · exact Precision.ofArgument?_eq_some_iff.1 (hgiven₃ a hmem)
          · simp only [defaults, List.mem_cons, Prod.mk.injEq, List.not_mem_nil, or_false] at hmem
            rcases hmem with ⟨rfl, rfl⟩ | ⟨rfl, rfl⟩ | ⟨rfl, rfl⟩
            · rw [habsent₁ habsent]
              rfl
            · rw [habsent₂ habsent]
              rfl
            · rw [habsent₃ habsent]
              exact .int 14

theorem Reads.unique {m : Table String Argument} {s s' : Settings} (h : Reads m s)
    (h' : Reads m s') : s = s' := by
  have hboth : ∀ name ∈ fields, ∃ a, Holds s name a ∧ Holds s' name a := by
    intro name hname
    by_cases hkey : name ∈ m.keys
    · obtain ⟨⟨name, a⟩, hentry, rfl⟩ := List.mem_map.1 hkey
      exact ⟨a, h.given _ _ hentry, h'.given _ _ hentry⟩
    · obtain ⟨⟨name, a⟩, hentry, rfl⟩ : ∃ entry ∈ defaults, entry.1 = name := by
        simpa [defaults, fields, eq_comm] using hname
      exact ⟨a, h.absent _ _ hentry hkey, h'.absent _ _ hentry hkey⟩
  have hdialect : s.dialect = s'.dialect := by
    obtain ⟨a, ha, ha'⟩ := hboth "dialect" (by decide)
    exact String.toList_inj.1 (by simpa using ha.symm.trans ha')
  have hskip : s.skipLiteral = s'.skipLiteral := by
    obtain ⟨a, ha, ha'⟩ := hboth "skip_literal" (by decide)
    simpa using ha.symm.trans ha'
  have hprecision : s.precision = s'.precision := by
    obtain ⟨a, ha, ha'⟩ := hboth "float_precision" (by decide)
    have hread := Precision.ofArgument?_eq_some_iff.2 ha
    exact Option.some.inj (hread.symm.trans (Precision.ofArgument?_eq_some_iff.2 ha'))
  cases s
  cases s'
  simp_all

theorem FirstOffending.unique {m : Table String Argument} {name name' : String}
    (h : FirstOffending m name) (h' : FirstOffending m name') : name = name' := by
  classical
  have hfind : ∀ {n : String}, FirstOffending m n →
      (fields ++ unknownNames m).find? (fun n => decide (Offends m n)) = some n := by
    rintro n ⟨hoffends, before, after, heq, hbefore⟩
    rw [List.find?_eq_some_iff_append]
    exact ⟨decide_eq_true hoffends, before, after, heq, by simpa using hbefore⟩
  exact Option.some.inj ((hfind h).symm.trans (hfind h'))

section Mapping

variable {m : Table String Argument} (h : m.keys.Nodup)
include h

theorem read_eq_ok_iff (s : Settings) : ofEntries (named m) = .ok s ↔ Reads m s := by
  have hread := readOutcome h
  generalize ofEntries (named m) = result at hread ⊢
  constructor
  · rintro rfl
    cases hread with
    | ok hreads hnone => exact hreads
  · intro hreads
    cases hread with
    | ok hreads' hnone => rw [hreads.unique hreads']
    | @error name hfirst =>
      obtain ⟨⟨a, hmem, hnot⟩, -⟩ := hfirst
      exact absurd (hreads.given name a hmem).accepts hnot

theorem read_eq_error_iff (e : ConfigError) : ofEntries (named m) = .error e ↔
    ∃ name, FirstOffending m name ∧ e = .invalidSetting name := by
  have hread := readOutcome h
  generalize ofEntries (named m) = result at hread ⊢
  constructor
  · rintro rfl
    cases hread with
    | error hfirst => exact ⟨_, hfirst, rfl⟩
  · rintro ⟨name, hfirst, rfl⟩
    cases hread with
    | ok hreads hnone => exact absurd hfirst.1 (hnone name)
    | error hfirst' => rw [hfirst.unique hfirst']

theorem exists_read_eq_ok_iff : (∃ s, ofEntries (named m) = .ok s) ↔
    ∀ name a, (name, a) ∈ m → Accepts name a := by
  constructor
  · rintro ⟨s, hs⟩ name a hmem
    exact (((read_eq_ok_iff h s).1 hs).given name a hmem).accepts
  · intro haccepts
    have hread := readOutcome h
    generalize ofEntries (named m) = result at hread ⊢
    cases hread with
    | ok hreads hnone => exact ⟨_, rfl⟩
    | @error name hfirst =>
      obtain ⟨⟨a, hmem, hnot⟩, -⟩ := hfirst
      exact absurd (haccepts name a hmem) hnot

/-- The order of a mapping matters for its unknown names only. -/
theorem read_eq_of_perm {m' : Table String Argument} (hperm : m'.Perm m)
    (hunknown : unknownNames m' = unknownNames m) :
    ofEntries (named m') = ofEntries (named m) := by
  have h' : m'.keys.Nodup := ((hperm.map Prod.fst).nodup_iff).2 h
  have hoffends : ∀ name, Offends m' name ↔ Offends m name := by
    intro name
    simp only [Offends, hperm.mem_iff]
  cases hread : ofEntries (named m) with
  | ok s =>
    obtain ⟨hgiven, habsent⟩ := (read_eq_ok_iff h s).1 hread
    refine (read_eq_ok_iff h' s).2 ⟨fun name a hmem => ?_, fun name a hmem hkey => ?_⟩
    · exact hgiven name a (hperm.mem_iff.1 hmem)
    · exact habsent name a hmem fun hkey' => hkey ((hperm.map Prod.fst).mem_iff.2 hkey')
  | error e =>
    obtain ⟨name, hfirst, rfl⟩ := (read_eq_error_iff h e).1 hread
    refine (read_eq_error_iff h' _).2 ⟨name, ?_, rfl⟩
    simpa only [FirstOffending, hoffends, hunknown] using hfirst

end Mapping

/-! ## Settings that a caller can get -/

/-- The settings of a bound database: a copy with the dialect of its escaper. -/
def boundTo (s : Settings) (e : Escaper) : Settings := { s with dialect := e.dialect }

/-- Settings are read from a mapping, or copied for a bound database. -/
inductive Reachable : Settings → Prop where
  | read {m : Table String Argument} (h : m.keys.Nodup) {s : Settings}
    (hs : ofEntries (named m) = .ok s) : Reachable s
  | bound {s : Settings} (hs : Reachable s) {r : Registry} {dialect : String} {e : Escaper}
    (he : r.lookup dialect = .ok e) : Reachable (s.boundTo e)

/-- What copies keep: all but the dialect is as it was read, and within its bounds. -/
structure Kept (s : Settings) : Prop where
  nonempty : s.skipLiteral ≠ []
  bounds : 1 ≤ s.precision.digits ∧ s.precision.digits ≤ 17
  origin : ∃ (m : Table String Argument) (s₀ : Settings), m.keys.Nodup ∧ Reads m s₀ ∧
    s = { s₀ with dialect := s.dialect }

theorem Reachable.kept {s : Settings} (h : Reachable s) : Kept s := by
  refine ⟨s.skipLiteral_ne_nil, ⟨s.precision.one_le, s.precision.le_seventeen⟩, ?_⟩
  induction h with
  | @read m hm s hs => exact ⟨m, s, hm, (read_eq_ok_iff hm s).1 hs, rfl⟩
  | @bound s hs r dialect e he ih =>
    obtain ⟨m, s₀, hm, hreads, hsame⟩ := ih
    exact ⟨m, s₀, hm, hreads, congrArg (·.boundTo e) hsame⟩

theorem exists_of_bind_eq_ok {ε α β : Type} {x : Except ε α} {f : α → Except ε β} {b : β}
    (h : x >>= f = .ok b) : ∃ a, x = .ok a ∧ f a = .ok b := by
  cases x with
  | error e => cases h
  | ok a => exact ⟨a, rfl, h⟩

theorem reachable_ofOptional {m : Option (Table String Argument)} (hm : ∀ m' ∈ m, m'.keys.Nodup)
    {s : Settings} (hs : ofOptional (m.map named) = .ok s) : Reachable s := by
  cases m with
  | none => exact .read (m := []) List.nodup_nil hs
  | some m => exact .read (hm m rfl) hs

theorem reachable_make {r : Registry} {source : HandlerSource} {m : Option (Table String Argument)}
    (hm : ∀ m' ∈ m, m'.keys.Nodup) {h : Handler}
    (hmake : Handler.make r source (m.map named) = .ok h) : Reachable h.settings := by
  match source with
  | .escaper none | .connection c =>
    obtain ⟨s, hs, hmake⟩ := exists_of_bind_eq_ok hmake
    obtain ⟨e, he, hmake⟩ := exists_of_bind_eq_ok hmake
    cases hmake
    exact reachable_ofOptional hm hs
  | .bound dialect =>
    obtain ⟨s, hs, hmake⟩ := exists_of_bind_eq_ok hmake
    obtain ⟨e, he, hmake⟩ := exists_of_bind_eq_ok hmake
    cases hmake
    exact (reachable_ofOptional hm hs).bound he
  | .escaper (some source) =>
    obtain ⟨e, he, hmake⟩ := exists_of_bind_eq_ok hmake
    obtain ⟨s, hs, hmake⟩ := exists_of_bind_eq_ok hmake
    cases hmake
    exact reachable_ofOptional hm hs

/-! ## Exactness -/

structure ReadsExactly (m : Table String Argument) : Prop where
  accepted_iff : (∃ s, ofEntries (named m) = .ok s) ↔ ∀ name a, (name, a) ∈ m → Accepts name a
  ok_iff : ∀ s, ofEntries (named m) = .ok s ↔ Reads m s
  error_iff : ∀ e, ofEntries (named m) = .error e ↔
    ∃ name, FirstOffending m name ∧ e = .invalidSetting name
  blamed : ∀ e, ofEntries (named m) = .error e → FirstOffending m e.setting
  reordered : ∀ m' : Table String Argument, m'.Perm m → unknownNames m' = unknownNames m →
    ofEntries (named m') = ofEntries (named m)
  /-- Also a handler that makes a copy for itself keeps what is read. -/
  made : ∀ r source h, Handler.make r source (some (named m)) = .ok h → Kept h.settings

/-- **Reading settings is exact and blames the first problem**, and what is read stays within its
bounds in all copies. -/
theorem reads_exactly {m : Table String Argument} (h : m.keys.Nodup) :
    ReadsExactly m ∧ ∀ s, Reachable s → Kept s := by
  refine ⟨⟨exists_read_eq_ok_iff h, read_eq_ok_iff h, read_eq_error_iff h, fun e he => ?_,
    fun m' => read_eq_of_perm h, fun r source handler hmake => ?_⟩, fun s hs => hs.kept⟩
  · obtain ⟨name, hfirst, rfl⟩ := (read_eq_error_iff h e).1 he
    exact hfirst
  · exact (reachable_make (m := some m) (by simpa using h) hmake).kept

/-- An unknown name, a precision of 0 behind it, and a skip literal that is accepted; in any order
the precision is blamed. A copy of the defaults for another dialect is within bounds. -/
theorem reads_exactly_unknown_and_zero :
    let m : Table String Argument := [("zz", .scalar .null),
      ("float_precision", .scalar (.bool false)), ("skip_literal", .scalar (.text ['x']))]
    m.keys.Nodup ∧ ofEntries (named m) = .error (.invalidSetting "float_precision") ∧
      ofEntries (named m.reverse) = .error (.invalidSetting "float_precision") ∧
      Kept (default.boundTo (.builtin .standard)) := by
  intro m
  have hnodup : m.keys.Nodup := by decide
  obtain ⟨h, hkept⟩ := reads_exactly hnodup
  have hzero : ¬Accepts "float_precision" (.scalar (.bool false)) := by
    rintro ⟨n, hn, hone, -⟩
    cases hn
    exact absurd hone (by decide)
  have hspared : ∀ name ∈ ["dialect", "skip_literal"], ¬Offends m name := by
    rintro name hname ⟨a, hmem, hnot⟩
    obtain ⟨rfl, rfl⟩ : name = "skip_literal" ∧ a = .scalar (.text ['x']) := by
      simp only [m, List.mem_cons, Prod.mk.injEq, List.not_mem_nil, or_false] at hname hmem
      rcases hname with rfl | rfl
      · simp at hmem
      · simpa using hmem
    exact hnot ⟨['x'], List.cons_ne_nil _ _, rfl⟩
  have herror : ofEntries (named m) = .error (.invalidSetting "float_precision") :=
    (h.error_iff _).2 ⟨_, ⟨⟨_, by simp [m], hzero⟩, ["dialect", "skip_literal"], ["zz"], rfl,
      hspared⟩, rfl⟩
  have hlookup : Registry.builtin.lookup "ansi" = .ok (.builtin .standard) := rfl
  exact ⟨hnodup, herror, (h.reordered _ m.reverse_perm rfl).trans herror,
    hkept _ (.bound (.read (m := []) List.nodup_nil rfl) hlookup)⟩

end Settings

end QueryTemplate
