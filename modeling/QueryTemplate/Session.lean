import QueryTemplate.Escape.Registration
import QueryTemplate.Query.Handler

/-!
# Sessions

A run of calls on named objects: registrations, handlers and their builds, and the passes of a build
one by one. A session holds what later calls can see. Handlers keep what they are made with, so
later registrations do not reach them; cursors and tallies go on from call to call.
-/

namespace QueryTemplate

/-- What a run of calls has made so far. -/
structure Session where
  registry : Registry := .builtin
  handlers : Table String Handler := []
  contexts : Table String (Context × Tally) := []
  cursors : Table String Cursor := []

namespace Session

/-- One call. Objects are known by their names. -/
inductive Step where
  | register (dialect : String) (e : Escaper)
  | decorate (d : Decorator) (e : Escaper)
  | listDialects
  | lookup (dialect : String)
  | makeHandler (id : String) (source : HandlerSource) (entries : Option (List (Scalar × Argument)))
  | build (id : String) (nonce : Nonce) (template : Text) (arguments : List Argument)
  | compile (id : String) (nonce : Nonce) (template : Text) (arguments : List Argument)
  | skip (id : String)
  | makeContext (id : String) (skipMarker : Text) (entries : Option (List (Scalar × Argument)))
      (source : Option EscaperSource)
  | makeCursor (id : String) (arguments : List Argument) (position : Int)
  | take (cursor : String) (marker : Text)
  | substitute (context cursor : String) (template : Text)
  | collapse (context : String) (t : Text)

inductive Answer where
  | dialects (names : List String)
  | decorated (e : Escaper) (names : List String)
  | escaper (e : Escaper)
  | handler (h : Handler)
  | query (sql : Text)
  | compilation (c : Compilation)
  | value (v : Value)
  | settings (s : Settings)
  | cursor (c : Cursor)
  | taken (v : Value) (c : Cursor)
  | substituted (t : Text) (c : Cursor)
  /-- A substitution that has failed, and the cursor that it leaves. -/
  | stopped (e : BuildError) (c : Cursor)
  | collapsed (t : Text) (tally : Tally)
  | buildError (e : BuildError)
  | configError (e : ConfigError)
  /-- No object has the name. -/
  | unknown (id : String)

def step (s : Session) : Step → Answer × Session
  | .register dialect e =>
    let registry := s.registry.register dialect e
    (.dialects registry.dialects, { s with registry })
  | .decorate d e =>
    let (e, registry) := d.apply e s.registry
    (.decorated e registry.dialects, { s with registry })
  | .listDialects => (.dialects s.registry.dialects, s)
  | .lookup dialect =>
    match s.registry.lookup dialect with
    | .ok e => (.escaper e, s)
    | .error e => (.configError e, s)
  | .makeHandler id source entries =>
    match Handler.make s.registry source entries with
    | .ok h => (.handler h, { s with handlers := s.handlers.set id h })
    | .error e => (.configError e, s)
  | .build id nonce template arguments =>
    match s.handlers.get? id with
    | none => (.unknown id, s)
    | some h =>
      match h.build nonce template arguments with
      | .ok sql => (.query sql, s)
      | .error e => (.buildError e, s)
  | .compile id nonce template arguments =>
    match s.handlers.get? id with
    | none => (.unknown id, s)
    | some h => (.compilation (h.compile nonce template arguments), s)
  | .skip id =>
    match s.handlers.get? id with
    | none => (.unknown id, s)
    | some _ => (.value .skip, s)
  | .makeContext id skipMarker entries source =>
    match Context.make s.registry skipMarker entries source with
    | .ok ctx => (.settings ctx.settings, { s with contexts := s.contexts.set id (ctx, {}) })
    | .error e => (.configError e, s)
  | .makeCursor id arguments position =>
    (.cursor ⟨arguments, position⟩, { s with cursors := s.cursors.set id ⟨arguments, position⟩ })
  | .take cursor marker =>
    match s.cursors.get? cursor with
    | none => (.unknown cursor, s)
    | some c =>
      match Cursor.takeValue marker c with
      | .ok v c => (.taken v c, { s with cursors := s.cursors.set cursor c })
      | .error e c => (.buildError e, { s with cursors := s.cursors.set cursor c })
  | .substitute context cursor template =>
    match s.contexts.get? context, s.cursors.get? cursor with
    | none, _ => (.unknown context, s)
    | _, none => (.unknown cursor, s)
    | some (ctx, _), some c =>
      match ctx.substitute template c with
      | .ok t c => (.substituted t c, { s with cursors := s.cursors.set cursor c })
      | .error e c => (.stopped e c, { s with cursors := s.cursors.set cursor c })
  | .collapse context t =>
    match s.contexts.get? context with
    | none => (.unknown context, s)
    | some (ctx, tally) =>
      let result := ctx.collapse tally t
      (.collapsed result.text result.tally,
        { s with contexts := s.contexts.set context (ctx, result.tally) })

def run (s : Session) : List Step → List Answer × Session
  | [] => ([], s)
  | call :: rest =>
    let (answer, s) := s.step call
    let (answers, s) := s.run rest
    (answer :: answers, s)

end Session

end QueryTemplate
