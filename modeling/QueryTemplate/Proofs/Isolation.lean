import QueryTemplate.Proofs.Nonce
import QueryTemplate.Session

/-!
# Handlers are isolated

In a run of calls, a build is answered from the escaper and the settings that its handler got when
it was made (`isolated`). No call in between reaches a handler: no registration, no build on it or
on another handler, whether it succeeds or fails. Which handler has a name is read off the calls and
their answers alone (`lastMade`); that the session holds just this handler is the invariant of a run
(`get?_handlers_run`), and one call preserves it (`get?_handlers_step`).
-/

namespace QueryTemplate

def Session.Answer.ofBuild : Except BuildError Text → Session.Answer
  | .ok sql => .query sql
  | .error e => .buildError e

theorem Session.Answer.ofBuild_ne_configError (r : Except BuildError Text) (e : ConfigError) :
    ofBuild r ≠ .configError e := by
  cases r <;> exact fun h => nomatch h

/-- The dialect whose escaper a handler takes from the registry, if it takes one from there and its
settings can be read. -/
def HandlerSource.dialect? (entries : Option (List (Scalar × Argument))) :
    HandlerSource → Option String
  | .escaper (some (.registered name)) => some name
  | .escaper none => (Settings.ofOptional entries).toOption.map Settings.dialect
  | .bound dialect => (Settings.ofOptional entries).toOption.map fun _ => dialect
  | _ => none

theorem Registry.lookup_of_not_mem {r : Registry} {dialect : String} (h : dialect ∉ r.dialects) :
    r.lookup dialect = .error (.unknownDialect dialect r.dialects) := by
  have hkeys : dialect ∉ r.escapers.keys := by
    rwa [dialects, List.mem_mergeSort] at h
  rw [lookup, (Table.get?_eq_none_iff _ _).2 hkeys]

theorem Settings.exists_of_map_toOption {entries : Option (List (Scalar × Argument))}
    {f : Settings → String} {dialect : String}
    (h : (ofOptional entries).toOption.map f = some dialect) :
    ∃ settings, ofOptional entries = .ok settings ∧ f settings = dialect := by
  cases hsettings : ofOptional entries with
  | error e =>
    rw [hsettings] at h
    cases h
  | ok settings =>
    rw [hsettings] at h
    exact ⟨settings, rfl, Option.some.inj h⟩

theorem Handler.make_of_lookup_error {r : Registry} {source : HandlerSource}
    {entries : Option (List (Scalar × Argument))} {dialect : String} {e : ConfigError}
    (hdialect : source.dialect? entries = some dialect) (h : r.lookup dialect = .error e) :
    Handler.make r source entries = .error e := by
  match source with
  | .connection c => cases hdialect
  | .bound name =>
    obtain ⟨settings, hsettings, rfl⟩ := Settings.exists_of_map_toOption hdialect
    simp only [make, hsettings, h, bind, Except.bind]
  | .escaper none =>
    obtain ⟨settings, hsettings, rfl⟩ := Settings.exists_of_map_toOption hdialect
    simp only [make, hsettings, h, bind, Except.bind]
  | .escaper (some (.registered name)) =>
    obtain rfl := Option.some.inj hdialect
    simp only [make, EscaperSource.resolve, h, bind, Except.bind]
  | .escaper (some (.given e')) => cases hdialect
  | .escaper (some (.connection c name)) => cases hdialect

namespace Session

/-! ## Which handler has a name -/

/-- The handler under a name after a call and its answer, when `held` was there before. -/
def made (id : String) (held : Option Handler) : Step × Answer → Option Handler
  | (.makeHandler id' _ _, .handler h) => if id' = id then some h else held
  | _ => held

/-- The handler that was made last under a name, going by the calls of a run and their answers. -/
def lastMade (id : String) (log : List (Step × Answer)) : Option Handler :=
  log.foldl (made id) none

/-- **One call.** Nothing but a handler that is made takes a place among the handlers. -/
theorem get?_handlers_step (s : Session) (call : Step) (id : String) :
    (s.step call).2.handlers.get? id = made id (s.handlers.get? id) (call, (s.step call).1) := by
  cases call with
  | register dialect e => rfl
  | decorate d e => rfl
  | listDialects => rfl
  | lookup dialect =>
    rw [step]
    split <;> rfl
  | makeHandler id' source entries =>
    rw [step]
    split
    · exact Table.get?_set s.handlers id' id _
    · rfl
  | build id' nonce template arguments =>
    rw [step]
    split
    · rfl
    · split <;> rfl
  | compile id' nonce template arguments =>
    rw [step]
    split <;> rfl
  | skip id' =>
    rw [step]
    split <;> rfl
  | makeContext id' skipMarker entries source =>
    rw [step]
    split <;> rfl
  | makeCursor id' arguments position => rfl
  | take cursor marker =>
    rw [step]
    split
    · rfl
    · split <;> rfl
  | substitute context cursor template =>
    rw [step]
    split
    · rfl
    · rfl
    · split <;> rfl
  | collapse context t =>
    rw [step]
    split <;> rfl

theorem get?_handlers_run (s : Session) (calls : List Step) (id : String) :
    (s.run calls).2.handlers.get? id =
      (calls.zip (s.run calls).1).foldl (made id) (s.handlers.get? id) := by
  induction calls generalizing s with
  | nil => rfl
  | cons call rest ih =>
    rw [run, List.zip_cons_cons, List.foldl_cons, ← get?_handlers_step]
    exact ih (s.step call).2

/-! ## Runs one after the other -/

theorem run_append (s : Session) (xs ys : List Step) :
    s.run (xs ++ ys) =
      ((s.run xs).1 ++ ((s.run xs).2.run ys).1, ((s.run xs).2.run ys).2) := by
  induction xs generalizing s with
  | nil => rfl
  | cons call xs ih =>
    rw [List.cons_append, run, run]
    simp only [ih]
    rfl

theorem length_run (s : Session) (calls : List Step) : (s.run calls).1.length = calls.length := by
  induction calls generalizing s with
  | nil => rfl
  | cons call rest ih => rw [run, List.length_cons, List.length_cons, ih]

def start (calls : List Step) : List Answer × Session := ({} : Session).run calls

def answer? (before : List Step) (call : Step) (after : List Step) : Option Answer :=
  (start (before ++ call :: after)).1[before.length]?

def handler? (calls : List Step) (id : String) : Option Handler :=
  lastMade id (calls.zip (start calls).1)

theorem get?_handlers_start (calls : List Step) (id : String) :
    (start calls).2.handlers.get? id = handler? calls id := get?_handlers_run {} calls id

theorem answer?_eq (before : List Step) (call : Step) (after : List Step) :
    answer? before call after = some ((start before).2.step call).1 := by
  have hlength : before.length = (start before).1.length := (length_run _ _).symm
  rw [answer?, start, run_append, ← start, hlength, List.getElem?_append_right (Nat.le_refl _),
    Nat.sub_self]
  rfl

theorem session_start_concat (before : List Step) (call : Step) :
    (start (before ++ [call])).2 = ((start before).2.step call).2 := by
  rw [start, run_append, ← start]
  rfl

theorem handler?_concat (before : List Step) (call : Step) (id : String) :
    handler? (before ++ [call]) id =
      made id (handler? before id) (call, ((start before).2.step call).1) := by
  rw [← get?_handlers_start, session_start_concat, get?_handlers_step, get?_handlers_start]

/-! ## Isolation -/

/-- What becomes of the handlers under a name in any run that begins with the calls `before`. -/
structure Isolated (before : List Step) (id : String) : Prop where
  /-- A handler that can be made from the registry as it is has the name from then on. Until another
  one is made under the name, builds are answered from what this one was made with, whatever is
  called in between and later. -/
  made : ∀ source entries h, Handler.make (start before).2.registry source entries = .ok h →
    (∀ after, answer? before (.makeHandler id source entries) after = some (.handler h)) ∧
    ∀ calls : List Step, (∀ source' entries', .makeHandler id source' entries' ∉ calls) →
      handler? (before ++ .makeHandler id source entries :: calls) id = some h ∧
      ∀ nonce template arguments after,
        answer? (before ++ .makeHandler id source entries :: calls)
            (.build id nonce template arguments) after =
          some (.ofBuild (h.build nonce template arguments)) ∧
        answer? (before ++ .makeHandler id source entries :: calls)
            (.compile id nonce template arguments) after =
          some (.compilation (h.compile nonce template arguments))
  /-- Where no handler can be made, the answer says why and nothing changes. -/
  failed : ∀ source entries e, Handler.make (start before).2.registry source entries = .error e →
    (∀ after, answer? before (.makeHandler id source entries) after = some (.configError e)) ∧
      (start (before ++ [.makeHandler id source entries])).2 = (start before).2 ∧
      handler? (before ++ [.makeHandler id source entries]) id = handler? before id
  /-- An unregistered dialect is found when a handler is made, and then none can be made. -/
  unregistered : ∀ source entries dialect, source.dialect? entries = some dialect →
    dialect ∉ (start before).2.registry.dialects →
      Handler.make (start before).2.registry source entries =
        .error (.unknownDialect dialect (start before).2.registry.dialects)
  /-- The handler stays the same until another one is made under its name. -/
  kept : ∀ calls : List Step, (∀ source entries, .makeHandler id source entries ∉ calls) →
    handler? (before ++ calls) id = handler? before id
  /-- A build is answered by the handler alone. -/
  build : ∀ nonce template arguments after,
    answer? before (.build id nonce template arguments) after =
      some (match handler? before id with
        | some h => .ofBuild (h.build nonce template arguments)
        | none => .unknown id)
  compile : ∀ nonce template arguments after,
    answer? before (.compile id nonce template arguments) after =
      some (match handler? before id with
        | some h => .compilation (h.compile nonce template arguments)
        | none => .unknown id)
  /-- Nothing is wrong with a handler once it is made. -/
  no_configError : ∀ nonce template arguments after e,
    answer? before (.build id nonce template arguments) after ≠ some (.configError e) ∧
      answer? before (.compile id nonce template arguments) after ≠ some (.configError e)
  /-- Without NUL, the answers do not depend on the nonce either. -/
  nonces : ∀ nonce nonce' template arguments after after',
    (∀ h, handler? before id = some h → (h.context nonce).NulFree template arguments) →
      answer? before (.build id nonce template arguments) after =
          answer? before (.build id nonce' template arguments) after' ∧
        answer? before (.compile id nonce template arguments) after =
          answer? before (.compile id nonce' template arguments) after'

variable (before : List Step) (id : String)

theorem answer?_build (nonce : Nonce) (template : Text) (arguments : List Argument)
    (after : List Step) :
    answer? before (.build id nonce template arguments) after =
      some (match handler? before id with
        | some h => .ofBuild (h.build nonce template arguments)
        | none => .unknown id) := by
  rw [answer?_eq, step, get?_handlers_start]
  cases handler? before id with
  | none => rfl
  | some h =>
    simp only
    cases h.build nonce template arguments <;> rfl

theorem answer?_compile (nonce : Nonce) (template : Text) (arguments : List Argument)
    (after : List Step) :
    answer? before (.compile id nonce template arguments) after =
      some (match handler? before id with
        | some h => .compilation (h.compile nonce template arguments)
        | none => .unknown id) := by
  rw [answer?_eq, step, get?_handlers_start]
  cases handler? before id <;> rfl

theorem handler?_append {calls : List Step}
    (h : ∀ source entries, .makeHandler id source entries ∉ calls) :
    handler? (before ++ calls) id = handler? before id := by
  induction calls generalizing before with
  | nil => rw [List.append_nil]
  | cons call rest ih =>
    have hrest := ih (before ++ [call]) fun source entries hmem =>
      h source entries (List.mem_cons_of_mem _ hmem)
    have hcall : made id (handler? before id) (call, ((start before).2.step call).1) =
        handler? before id := by
      unfold made
      split
      · rename_i id' source entries h' heq
        obtain ⟨rfl, -⟩ := Prod.mk.inj heq
        have hne : id' ≠ id := by
          rintro rfl
          exact h source entries List.mem_cons_self
        rw [if_neg hne]
      · rfl
    rw [handler?_concat, hcall, List.append_assoc, List.singleton_append] at hrest
    exact hrest

/-- **Handlers are isolated.** After any run of calls, whatever comes later. -/
theorem isolated : Isolated before id where
  made source entries h hmake := by
    have hstep : ((start before).2.step (.makeHandler id source entries)).1 = .handler h := by
      rw [step, hmake]
    refine ⟨fun after => by rw [answer?_eq, hstep], fun calls hcalls => ?_⟩
    have hhandler : handler? (before ++ .makeHandler id source entries :: calls) id = some h := by
      rw [List.append_cons, handler?_append _ _ hcalls, handler?_concat, hstep, Session.made,
        if_pos rfl]
    refine ⟨hhandler, fun nonce template arguments after => ?_⟩
    rw [answer?_build, answer?_compile, hhandler]
    exact ⟨rfl, rfl⟩
  failed source entries e hmake := by
    have hstep : (start before).2.step (.makeHandler id source entries) =
        (.configError e, (start before).2) := by
      rw [step, hmake]
    refine ⟨fun after => by rw [answer?_eq, hstep], by rw [session_start_concat, hstep], ?_⟩
    rw [handler?_concat, hstep]
    rfl
  unregistered source entries dialect hdialect hnot :=
    Handler.make_of_lookup_error hdialect (Registry.lookup_of_not_mem hnot)
  kept calls h := handler?_append before id h
  build := answer?_build before id
  compile := answer?_compile before id
  no_configError nonce template arguments after e := by
    rw [answer?_build, answer?_compile]
    cases handler? before id with
    | none => exact ⟨by simp, by simp⟩
    | some h =>
      have hbuild := Answer.ofBuild_ne_configError (h.build nonce template arguments) e
      exact ⟨by simpa using hbuild, by simp⟩
  nonces nonce nonce' template arguments after after' hnul := by
    rw [answer?_build, answer?_build, answer?_compile, answer?_compile]
    cases hhandler : handler? before id with
    | none => exact ⟨rfl, rfl⟩
    | some h =>
      have hsame := Handler.compile_nonce (hnul h hhandler) nonce'
      simp only [Handler.build, hsame, and_self]

/-- A handler for the dialect "mysql", other escapers under that name in both forms, and a build
that fails. -/
def reregistration : List Step :=
  [.makeHandler "db" (.escaper none) none, .register "mysql" (.builtin .standard),
    .decorate ⟨"mysql"⟩ (.builtin .sqlite), .build "db" (.replicate 32 0) ['?'] []]

/-- The handler still doubles backslashes, as the escaper does that it was made with, and a handler
for a dialect that nobody has registered is none. -/
theorem isolated_reregistration :
    answer? reregistration (.build "db" (.replicate 32 0) ['?'] [.scalar (.text ['\\'])]) [] =
        some (.query ['\'', '\\', '\\', '\'']) ∧
      answer? reregistration (.makeHandler "db" (.bound "oracle") none) [] =
        some (.configError
          (.unknownDialect "oracle" (start reregistration).2.registry.dialects)) := by
  have hmade := (isolated [] "db").made (.escaper none) none ⟨.builtin .mysql, {}⟩ rfl
  have hbuild := (hmade.2 [.register "mysql" (.builtin .standard),
    .decorate ⟨"mysql"⟩ (.builtin .sqlite), .build "db" (.replicate 32 0) ['?'] []] (by simp)).2
  have hunregistered : "oracle" ∉ (start reregistration).2.registry.dialects := by
    rw [Registry.dialects, List.mem_mergeSort]
    decide
  have hmake := (isolated reregistration "db").unregistered (.bound "oracle") none "oracle" rfl
    hunregistered
  exact ⟨(hbuild _ _ _ []).1, ((isolated reregistration "db").failed _ _ _ hmake).1 []⟩

end Session

end QueryTemplate
