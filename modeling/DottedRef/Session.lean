import DottedRef.Engine
import DottedRef.FileSystem

/-
  This file defines sessions: an engine, the files it reads,
  and a list of steps. Steps may also run while the engine
  waits for the file system, to any depth. The file system
  settles its answer before such steps run.

  Key definitions include:
    * `Session`
    * `Session.reloadWith`
    * `Session.reload`
    * `Action`
    * `Operation`
    * `Answer`
    * `Session.act`
    * `Session.perform`
    * `Step`
    * `Row`
    * `Session.report`
    * `Step.run`
    * `runSteps`
-/

namespace DottedRef

------------------------------------------------------------
-- Sessions
------------------------------------------------------------

/-
  An engine and its files, with the tickets given out and the
  snapshots kept so far, and how many notices and log entries
  have been reported.
-/
structure Session where
  engine : Engine
  files : FileSystem
  tickets : List Ticket
  held : List (Option Document)
  logLimit : Option LogLevel
  noticesReported : Nat
  entriesReported : Nat

/- A session at its start. -/
def Session.new
    (engine : Engine)
    (files : FileSystem)
    (logLimit : Option LogLevel) : Session :=
  ⟨engine, files, [], [], logLimit, 0, 0⟩

namespace Session

/- What happens while a call to the file system is answered. -/
abbrev Meanwhile (ρ : Type) :=
  Session → Session × ρ

/- Replace the engine. -/
def withEngine
    (session : Session)
    (engine : Engine) : Session :=
  { session with engine := engine }

/- Log entries. -/
def record
    (session : Session)
    (entries : List LogEntry) : Session :=
  session.withEngine (session.engine.record entries)

------------------------------------------------------------
-- Reloads
------------------------------------------------------------

/-
  The end of a reload, with what came of the steps that ran
  during either call, if the call was made.
-/
structure Reload (ρ : Type) where
  session : Session
  outcome : Except LoadError Store.Commit
  duringExists : Option ρ
  duringRead : Option ρ

/- What a read amounts to for a reload. -/
def findingOf : Except String (List UInt8) → Engine.Finding
  | .ok bytes => .contents bytes
  | .error reason => .unreadable reason

/- Finish a reload of a session's engine. -/
def finish
    (session : Session)
    (ticket : Ticket)
    (finding : Engine.Finding) :
    Session × Except LoadError Store.Commit :=
  let finished := session.engine.finishReload ticket finding
  (session.withEngine finished.1, finished.2)

/- A session that asks for its file, a reload being started. -/
def asking
    (session : Session) : Session :=
  session.withEngine session.engine.startReload.1

/-
  Reload the configuration: start, ask whether the file is
  there, read it if it is, and finish. Whether it is there and
  what reading gives once that is answered are given.
-/
def reloadWith
    (session : Session)
    (isThere : Bool)
    (reading : Session → Except String (List UInt8))
    (meanwhileExists meanwhileRead : Meanwhile ρ) : Reload ρ :=
  let ticket := session.engine.startReload.2
  let asked := meanwhileExists session.asking
  if isThere then
    let read := meanwhileRead asked.1
    let finished :=
      read.1.finish ticket (findingOf (reading asked.1))
    ⟨finished.1, finished.2, some asked.2, some read.2⟩
  else
    let finished := asked.1.finish ticket .missing
    ⟨finished.1, finished.2, some asked.2, none⟩

/- Reload the configuration from the files of a session. -/
def reload
    (session : Session)
    (meanwhileExists meanwhileRead : Meanwhile ρ) : Reload ρ :=
  let path := session.engine.configPath
  session.reloadWith (session.files.contains path)
    (·.files.read path) meanwhileExists meanwhileRead

------------------------------------------------------------
-- Operations
------------------------------------------------------------

end Session

/- What is done at once, without a call to the file system. -/
inductive Action where
  | storeReload (source : List UInt8)
  | beginReload
  | commit (ticket : Nat) (source : List UInt8)
  | commitAbsent (ticket : Nat)
  | storeDelete
  | current
  | suffixes
  | hold
  | held (snapshot : Nat)
  | setFile (path : String) (contents : Contents)
  | removeFile (path : String)
  | makeDirectory (path : String)
  | diagnostics (name text : String)
  | completion (text : String) (carets : List Nat)
  | completionItems (text : String) (carets : List Nat)
  | hover (text : String) (offsets : List Nat)
  | options

/- What can be asked of a session. -/
inductive Operation where
  | act (action : Action)
  | startUp
  | reload
  | event (kind : EventKind) (path : String)

/- A diagnostic with its place in the text in both encodings. -/
structure PlacedDiagnostic where
  diagnostic : Diagnostic
  range : Range
  rangeUtf16 : Range
deriving DecidableEq

/- What a session answers. -/
inductive Answer where
  | nothing
  | ready
  | applied (document : Document)
  | superseded
  | failed (error : LoadError)
  | ticket (index : Nat)
  | cleared (inTime : Bool)
  | current (document : Option Document)
  | suffixes (suffixes : List String)
  | holding (index : Nat)
  | held
      (document : Option Document)
      (equalsCurrent : Option Bool)
  | diagnostics (diagnostics : List PlacedDiagnostic)
  | completion (keys : List (List String))
  | completionItems (items : List (List Engine.CompletionItem))
  | hover (texts : List (Option String))
  | options (configPath : String)
  | unknownTicket
  | unknownSnapshot

namespace Answer

/- The answer for a document that was loaded at once. -/
def ofLoad : Except LoadError Document → Answer
  | .ok document => applied document
  | .error error => failed error

/- The answer for a reload that is finished. -/
def ofCommit : Except LoadError Store.Commit → Answer
  | .ok (.applied document) => applied document
  | .ok .superseded => superseded
  | .error error => failed error

/- The answer for a start, to which a missing file is fine. -/
def ofStart : Except LoadError Store.Commit → Answer
  | .ok _ => ready
  | .error (.missing _) => ready
  | .error error => failed error

end Answer

namespace Session

/- Change the store of a session and answer. -/
def request
    (session : Session)
    (change : Store.Change α)
    (answer : α → Answer) : Session × Answer :=
  (session.withEngine (session.engine.adopt change),
    answer change.answer)

/- Compare two documents, if there are both. -/
def sameDocument? : Option Document → Option Document → Option Bool
  | some first, some second => some (first.same second)
  | _, _ => none

/- A diagnostic placed in its text. -/
def place
    (text : String)
    (diagnostic : Diagnostic) : PlacedDiagnostic :=
  ⟨diagnostic, diagnostic.range text, diagnostic.rangeUtf16 text⟩

/- What is logged of the lookup for one caret or offset. -/
def traceOf
    (lookup : Option Resolution) : List LogEntry :=
  match lookup with
  | none => []
  | some resolution => resolution.trace

/- Do what is done at once. -/
def act
    (session : Session)
    (action : Action) : Session × Answer :=
  let engine := session.engine
  let store := engine.store
  match action with
  | .storeReload source =>
      session.request (store.reload source) .ofLoad
  | .beginReload =>
      let change := store.beginReload
      ({ session.withEngine (engine.adopt change) with
          tickets := session.tickets ++ [change.answer] },
        .ticket session.tickets.length)
  | .commit index source =>
      match session.tickets[index]? with
      | none => (session, .unknownTicket)
      | some ticket =>
          session.request (store.commit ticket source) .ofCommit
  | .commitAbsent index =>
      match session.tickets[index]? with
      | none => (session, .unknownTicket)
      | some ticket =>
          session.request (store.commitAbsent ticket) .cleared
  | .storeDelete =>
      session.request store.delete fun _ => .nothing
  | .current => (session, .current engine.current?)
  | .suffixes => (session, .suffixes store.suffixes)
  | .hold =>
      ({ session with held := session.held ++ [engine.current?] },
        .holding session.held.length)
  | .held index =>
      match session.held[index]? with
      | none => (session, .unknownSnapshot)
      | some document =>
          (session, .held document
            (sameDocument? document engine.current?))
  | .setFile path contents =>
      ({ session with files := session.files.set path contents },
        .nothing)
  | .removeFile path =>
      ({ session with files := session.files.remove path },
        .nothing)
  | .makeDirectory path =>
      ({ session with files := session.files.makeDirectory path },
        .nothing)
  | .diagnostics name text =>
      (session.record ((engine.lookups name text).flatMap
          (·.resolution.trace)),
        .diagnostics ((engine.diagnostics name text).map
          (place text)))
  | .completion text carets =>
      (session.record (carets.flatMap fun caret =>
          traceOf (engine.draftLookup? text caret)),
        .completion (carets.map (engine.completion text)))
  | .completionItems text carets =>
      (session.record (carets.flatMap fun caret =>
          traceOf (engine.draftLookup? text caret)),
        .completionItems (carets.map
          (engine.completionItems text)))
  | .hover text offsets =>
      (session.record (offsets.flatMap fun offset =>
          traceOf (engine.hoverLookup? text offset)),
        .hover (offsets.map (engine.hover text)))
  | .options => (session, .options engine.configPath)

/-
  The end of an operation, with what came of the steps that
  ran during either call, if the call was made.
-/
structure Performed (ρ : Type) where
  session : Session
  answer : Answer
  duringExists : Option ρ
  duringRead : Option ρ

/- A reload with an answer of its own. -/
def Reload.answering
    (reload : Reload ρ)
    (answer : Answer) : Performed ρ :=
  ⟨reload.session, answer, reload.duringExists,
    reload.duringRead⟩

/- What is logged of a reload that an event led to. -/
def eventLog
    (kind : EventKind) :
    Except LoadError Store.Commit → List LogEntry
  | .ok _ => []
  | .error error => [.reloadFailed kind error]

/-
  React to an event. Events for other files are ignored.
-/
def react
    (session : Session)
    (kind : EventKind)
    (path : String)
    (meanwhileExists meanwhileRead : Meanwhile ρ) :
    Performed ρ :=
  if session.engine.watches path then
    match kind with
    | .deleted =>
        ⟨session.withEngine (session.engine.dropConfig path),
          .nothing, none, none⟩
    | kind =>
        let reload := session.reload meanwhileExists meanwhileRead
        ⟨reload.session.record (eventLog kind reload.outcome),
          .nothing, reload.duringExists, reload.duringRead⟩
  else
    ⟨session.record [.eventIgnored kind path],
      .nothing, none, none⟩

/- Perform an operation. -/
def perform
    (operation : Operation)
    (meanwhileExists meanwhileRead : Meanwhile ρ)
    (session : Session) : Performed ρ :=
  match operation with
  | .act action =>
      let acted := session.act action
      ⟨acted.1, acted.2, none, none⟩
  | .startUp =>
      let reload := session.reload meanwhileExists meanwhileRead
      reload.answering (.ofStart reload.outcome)
  | .reload =>
      let reload := session.reload meanwhileExists meanwhileRead
      reload.answering (.ofCommit reload.outcome)
  | .event kind path =>
      session.react kind path meanwhileExists meanwhileRead

end Session

------------------------------------------------------------
-- Steps
------------------------------------------------------------

/-
  An operation and the steps that run while it waits for the
  answer to either call.
-/
inductive Step where
  | mk
      (operation : Operation)
      (duringExists duringRead : List Step)

/-
  What is reported of a step: its answer, the status after it,
  and the notices and log entries since the last report. Steps
  that ran meanwhile have reports of their own.
-/
inductive Row where
  | mk
      (answer : Answer)
      (status : Status)
      (notices : List Notice)
      (log : List LogEntry)
      (duringExists duringRead : Option (List Row))

/-
  Report on a step. Notices that went to the log are not
  reported again.
-/
def Session.report
    (performed : Session.Performed (List Row)) : Session × Row :=
  let session := performed.session
  let engine := session.engine
  let notices :=
    match engine.channel with
    | .host => engine.notices.drop session.noticesReported
    | .log => []
  let log := (engine.log.drop session.entriesReported).filter
    fun entry => LogLevel.admits session.logLimit entry.level
  ({ session with
      noticesReported := engine.notices.length
      entriesReported := engine.log.length },
    .mk performed.answer engine.store.status notices log
      performed.duringExists performed.duringRead)

mutual

/- Run a step and report on it. -/
def Step.run : Step → Session → Session × Row
  | .mk operation duringExists duringRead, session =>
      Session.report (session.perform operation
        (runSteps duringExists) (runSteps duringRead))

/- Run steps one after another. -/
def runSteps : List Step → Session → Session × List Row
  | [], session => (session, [])
  | step :: steps, session =>
      let ran := step.run session
      let rest := runSteps steps ran.1
      (rest.1, ran.2 :: rest.2)

end

end DottedRef
