import QueryTemplate.Escape.Registration
import QueryTemplate.Proofs.Classification
import QueryTemplate.Session

/-!
# The last registration wins

A registry is the table of the registrations that have been made, in either form and in any order
with other calls (`escapers_after`, by induction from one call, `step_registration`). So it gives
the escaper that was registered last under a name, refuses the names that were never registered,
and lists each registered name once, in the order of the code points (`last_registration_wins`). In
a session nothing but a registration changes the registry (`Session.registry_run`).
-/

namespace QueryTemplate

/-! ## The order of names -/

/-- The order of the code points: the first one that differs decides, and a name comes before those
that begin with it. -/
def Precedes (a b : String) : Prop :=
  List.Lex (fun c d : Char => c.toNat < d.toNat) a.toList b.toList

theorem precedes_iff_lt (a b : String) : Precedes a b ↔ a < b := by
  have hchar : (fun c d : Char => c.toNat < d.toNat) = (· < ·) := by
    funext c d
    rw [Char.lt_def, UInt32.lt_iff_toNat_lt]
    rfl
  rw [Precedes, hchar]
  exact Iff.rfl

namespace Registry

theorem precedes_dialects {r : Registry} (h : r.escapers.keys.Nodup) :
    r.dialects.Pairwise Precedes := by
  have hpairwise : r.dialects.Pairwise fun a b => decide (a ≤ b) := by
    apply List.pairwise_mergeSort
    · intro a b c hab hbc
      exact decide_eq_true (String.le_trans (of_decide_eq_true hab) (of_decide_eq_true hbc))
    · intro a b
      simpa using String.le_total a b
  have hnodup : r.dialects.Nodup := (List.mergeSort_perm _ _).nodup_iff.2 h
  refine hpairwise.imp₂ (fun a b hle hne => ?_) hnodup
  rw [precedes_iff_lt, ← String.not_le]
  intro hge
  exact hne (String.le_antisymm (of_decide_eq_true hle) hge)

/-! ## One call -/

def Call.registration? : Call → Option (String × Escaper)
  | .register name e => some (name, e)
  | .decorate d e => some (d.name, e)
  | .create _ => none
  | .list => none

theorem step_registration (r : Registry) (call : Call) :
    (r.step call).2 = (call.registration?.elim r fun entry => r.register entry.1 entry.2) := by
  cases call with
  | register name e => rfl
  | decorate d e => rfl
  | create name =>
    rw [step]
    split <;> rfl
  | list => rfl

theorem step_create (r : Registry) (name : String) : (r.step (.create name)).2 = r := by
  rw [step_registration]
  rfl

theorem created_iff (r : Registry) (name : String) (e : Escaper) :
    (r.step (.create name)).1 = .created e ↔ r.escapers.get? name = some e := by
  rw [step, lookup]
  cases r.escapers.get? name <;> simp

theorem refused_iff (r : Registry) (name : String) (e : ConfigError) :
    (r.step (.create name)).1 = .refused e ↔
      r.escapers.get? name = none ∧ e = .unknownDialect name r.dialects := by
  rw [step, lookup]
  cases r.escapers.get? name <;> simp [eq_comm]

/-! ## Histories -/

def builtinRegistrations : List (String × Escaper) :=
  [("mysql", .builtin .mysql), ("mariadb", .builtin .mysql), ("sqlite", .builtin .sqlite),
    ("postgresql", .builtin .postgresql), ("ansi", .builtin .standard)]

def registrations (calls : List Call) : List (String × Escaper) :=
  builtinRegistrations ++ calls.filterMap Call.registration?

theorem escapers_after (calls : List Call) :
    (builtin.after calls).escapers = Table.ofEntries (registrations calls) := by
  -- the last call is taken off, because it is the one that wins
  induction calls using List.reverseRecOn with
  | nil => rfl
  | append_singleton calls call ih =>
    have hafter : builtin.after (calls ++ [call]) = ((builtin.after calls).step call).2 := by
      rw [after, List.foldl_append]
      rfl
    rw [hafter, step_registration]
    cases hcall : call.registration? with
    | none =>
      have hsame : registrations (calls ++ [call]) = registrations calls := by
        simp [registrations, hcall]
      rw [hsame, ← ih]
      rfl
    | some entry =>
      have hmore : registrations (calls ++ [call]) = registrations calls ++ [entry] := by
        simp [registrations, hcall]
      rw [hmore, Table.ofEntries, List.foldl_append, ← Table.ofEntries, ← ih]
      rfl

structure Tracks (r : Registry) (history : List (String × Escaper)) : Prop where
  /-- The escaper is given that was registered last under the name. -/
  created_iff : ∀ name e, (r.step (.create name)).1 = .created e ↔
    ∃ before after, history = before ++ (name, e) :: after ∧ name ∉ after.map Prod.fst
  /-- A name is refused when it was never registered. -/
  refused_iff : ∀ name e, (r.step (.create name)).1 = .refused e ↔
    name ∉ history.map Prod.fst ∧ e = .unknownDialect name r.dialects
  /-- The message of a refusal lists the names that are registered. -/
  refusal : ∀ name e, (r.step (.create name)).1 = .refused e →
    e.setting = "dialect" ∧
    e.message? = some ("Unsupported dialect: '" ++ name ++ "'. Registered dialects: [" ++
      ", ".intercalate (r.dialects.map fun n => String.ofList (Text.quoted n.toList)) ++ "].")
  unchanged : ∀ name, (r.step (.create name)).2 = r
  listed : r.step .list = (.dialects r.dialects, r)
  increasing : r.dialects.Pairwise Precedes
  mem_dialects_iff : ∀ name, name ∈ r.dialects ↔ name ∈ history.map Prod.fst
  /-- A registration in either form leaves the escapers of all other names. -/
  others : ∀ call name e, call.registration? = some (name, e) → ∀ other, other ≠ name → ∀ e',
    ((r.step call).2.step (.create other)).1 = .created e' ↔
      (r.step (.create other)).1 = .created e'

theorem tracks_of_lastWrites {r : Registry} {history : List (String × Escaper)}
    (hnodup : r.escapers.keys.Nodup) (h : Table.LastWrites history r.escapers) :
    Tracks r history := by
  have hkeys : ∀ name, name ∈ r.escapers.keys ↔ name ∈ history.map Prod.fst := by
    intro name
    rw [h.keys, List.mem_eraseDups]
  refine ⟨fun name e => ?_, fun name e => ?_, fun name e he => ?_, step_create r, rfl,
    precedes_dialects hnodup, fun name => ?_, fun call name e hcall other hne e' => ?_⟩
  · rw [created_iff, ← Table.mem_iff_get? hnodup, h.mem_iff]
  · rw [refused_iff, Table.get?_eq_none_iff, hkeys]
  · obtain ⟨-, rfl⟩ := (refused_iff r name e).1 he
    exact ⟨rfl, rfl⟩
  · rw [dialects, List.mem_mergeSort, hkeys]
  · rw [created_iff, created_iff, step_registration, hcall, Option.elim_some, register,
      Table.get?_set, if_neg hne.symm]

end Registry

namespace Session

/-- The call that a step of a session makes on the registry for the caller. -/
def Step.registryCall? : Step → Option Registry.Call
  | .register dialect e => some (.register dialect e)
  | .decorate d e => some (.decorate d e)
  | .lookup dialect => some (.create dialect)
  | .listDialects => some .list
  | _ => none

/-- Nothing but these calls reaches the registry, whatever handlers do with it. -/
theorem registry_step (s : Session) (call : Step) :
    (s.step call).2.registry = s.registry.after call.registryCall?.toList := by
  cases call with
  | register dialect e => rfl
  | decorate d e => rfl
  | listDialects => rfl
  | lookup dialect =>
    have hsame := s.registry.step_create dialect
    rw [step]
    split <;> exact hsame.symm
  | makeHandler id source entries =>
    rw [step]
    split <;> rfl
  | build id nonce template arguments =>
    rw [step]
    split
    · rfl
    · split <;> rfl
  | compile id nonce template arguments =>
    rw [step]
    split <;> rfl
  | skip id =>
    rw [step]
    split <;> rfl
  | makeContext id skipMarker entries source =>
    rw [step]
    split <;> rfl
  | makeCursor id arguments position => rfl
  | take cursor marker =>
    rw [step]
    split
    · rfl
    · split <;> rfl
  | substitute context cursor template =>
    rw [step]
    split
    · rfl
    · rfl
    · split <;> rfl
  | collapse context t =>
    rw [step]
    split <;> rfl

theorem registry_run (s : Session) (steps : List Step) :
    (s.run steps).2.registry = s.registry.after (steps.filterMap Step.registryCall?) := by
  induction steps generalizing s with
  | nil => rfl
  | cons call rest ih =>
    have hcalls : (call :: rest).filterMap Step.registryCall? =
        call.registryCall?.toList ++ rest.filterMap Step.registryCall? := by
      cases hcall : call.registryCall? <;> simp [hcall]
    have hrun : (s.run (call :: rest)).2.registry = ((s.step call).2.run rest).2.registry := rfl
    rw [hrun, ih, registry_step, hcalls, Registry.after, Registry.after, Registry.after,
      List.foldl_append]

end Session

namespace Registry

/-- **The last registration wins**, after any calls on a registry, and after any session in which
such calls are made among others. -/
theorem last_registration_wins :
    (∀ calls : List Call, Tracks (builtin.after calls) (registrations calls)) ∧
    ∀ steps : List Session.Step, Tracks (({} : Session).run steps).2.registry
      (registrations (steps.filterMap Session.Step.registryCall?)) := by
  have htracks : ∀ calls : List Call, Tracks (builtin.after calls) (registrations calls) := by
    intro calls
    have hwritten := Table.lastWrites_ofEntries (registrations calls)
    rw [← escapers_after] at hwritten
    exact tracks_of_lastWrites hwritten.1 hwritten.2
  refine ⟨htracks, fun steps => ?_⟩
  rw [Session.registry_run]
  exact htracks _

/-- A name that is registered in both forms, a built-in name that is registered again, and a name
that differs from it in case. -/
theorem last_registration_wins_mixed :
    let calls : List Call := [.register "x" (.builtin .sqlite),
      .decorate ⟨"mysql"⟩ (.builtin .standard), .create "MySQL",
      .decorate ⟨"x"⟩ (.builtin .postgresql), .list]
    let r := builtin.after calls
    (r.step (.create "x")).1 = .created (.builtin .postgresql) ∧
      (r.step (.create "mysql")).1 = .created (.builtin .standard) ∧
      (r.step (.create "MySQL")).1 = .refused (.unknownDialect "MySQL" r.dialects) := by
  intro calls r
  obtain ⟨htracks, -⟩ := last_registration_wins
  have h := htracks calls
  refine ⟨(h.created_iff _ _).2 ?_, (h.created_iff _ _).2 ?_, (h.refused_iff _ _).2 ⟨?_, rfl⟩⟩
  · exact ⟨(registrations calls).take 7, [], rfl, List.not_mem_nil⟩
  · exact ⟨(registrations calls).take 6, [("x", .builtin .postgresql)], rfl, by decide⟩
  · decide

end Registry

end QueryTemplate
