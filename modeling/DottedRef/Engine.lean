import DottedRef.Diagnostic
import DottedRef.Location
import DottedRef.Placeholder.Draft
import DottedRef.Store

/-
  This file defines the engine that answers an editor's
  questions about placeholders and keeps the configuration up
  to date.

  A reload has two ends, with calls to the file system between
  them. Each end is one step, so other requests may come in
  between.

  Key definitions include:
    * `Engine`
    * `Engine.new`
    * `Engine.notify`
    * `Engine.startReload`
    * `Finding`
    * `Engine.finishReload`
    * `Engine.watches`
    * `Engine.dropConfig`
    * `Engine.lookups`
    * `Engine.diagnostics`
    * `Engine.candidates`
    * `Engine.completion`
    * `Engine.completionItems`
    * `Engine.hover`
-/

namespace DottedRef

------------------------------------------------------------
-- Engines
------------------------------------------------------------

/- Where notices go: to the host, or to the log. -/
inductive Channel where
  | host
  | log
deriving DecidableEq

/-
  The store, with all notices raised and all entries logged so
  far, the oldest first.
-/
structure Engine where
  configPath : String
  channel : Channel
  store : Store
  notices : List Notice
  log : List LogEntry

namespace Engine

/- An engine that has not looked for its configuration. -/
def new
    (configPath : String)
    (channel : Channel) : Engine :=
  ⟨configPath, channel, .empty configPath, [], []⟩

/- Log entries. -/
def record
    (engine : Engine)
    (entries : List LogEntry) : Engine :=
  { engine with log := engine.log ++ entries }

/- Take over a change to the store. -/
def adopt
    (engine : Engine)
    (change : Store.Change α) : Engine :=
  { engine.record change.log with store := change.store }

/- Raise a notice. -/
def notify
    (engine : Engine)
    (notice : Notice) : Engine :=
  match engine.channel with
  | .host =>
      { engine with notices := engine.notices ++ [notice] }
  | .log =>
      { engine.record [.notified notice] with
        notices := engine.notices ++ [notice] }

------------------------------------------------------------
-- Reloads
------------------------------------------------------------

/- What a reload finds in place of its file. -/
inductive Finding where
  | missing
  | unreadable (reason : String)
  | contents (bytes : List UInt8)

/- Start a reload. -/
def startReload
    (engine : Engine) : Engine × Ticket :=
  (engine.adopt engine.store.beginReload,
    engine.store.beginReload.answer)

/-
  Finish a reload that found no usable file. Nobody is told of
  one that comes too late.
-/
def finishWithout
    (engine : Engine)
    (ticket : Ticket)
    (error : LoadError) :
    Engine × Except LoadError Store.Commit :=
  let change := engine.store.commitAbsent ticket
  if change.answer then
    ((engine.adopt change).notify (.failed error), .error error)
  else
    (engine.adopt change, .ok .superseded)

/-
  Finish a reload with the bytes of its file. Nobody is told
  of one that comes too late.
-/
def finishWith
    (engine : Engine)
    (ticket : Ticket)
    (bytes : List UInt8) :
    Engine × Except LoadError Store.Commit :=
  let change := engine.store.commit ticket bytes
  match change.answer with
  | .ok .superseded =>
      ((engine.adopt change).record
        [.reloadSuperseded engine.configPath], change.answer)
  | .ok (.applied _) =>
      ((engine.adopt change).notify (.loaded engine.configPath),
        change.answer)
  | .error error =>
      ((engine.adopt change).notify (.failed error),
        change.answer)

/- Finish a reload with what it found. -/
def finishReload
    (engine : Engine)
    (ticket : Ticket)
    (finding : Finding) :
    Engine × Except LoadError Store.Commit :=
  match finding with
  | .missing =>
      engine.finishWithout ticket (.missing engine.configPath)
  | .unreadable reason =>
      engine.finishWithout ticket
        (.unreadable engine.configPath reason)
  | .contents bytes => engine.finishWith ticket bytes

------------------------------------------------------------
-- Events
------------------------------------------------------------

/-
  Whether a path names the configuration file. Paths are
  compared by the places they name.
-/
def watches
    (engine : Engine)
    (path : String) : Bool :=
  Location.normalizePath path =
    Location.normalizePath engine.configPath

/- Drop the configuration because a file was deleted. -/
def dropConfig
    (engine : Engine)
    (path : String) : Engine :=
  (engine.adopt engine.store.delete).notify (.deleted path)

------------------------------------------------------------
-- Diagnostics
------------------------------------------------------------

/- The document in force. -/
def current?
    (engine : Engine) : Option Document :=
  engine.store.current?

/- The placeholders of a text and what they lead to. -/
def lookups
    (engine : Engine)
    (name text : String) : List Lookup :=
  match engine.current? with
  | none => []
  | some document =>
      if document.appliesTo name then
        (Placeholder.scan text).map fun occurrence =>
          ⟨occurrence, document.data.resolve occurrence.path⟩
      else
        []

/- A diagnostic for each placeholder that leads nowhere. -/
def diagnostics
    (engine : Engine)
    (name text : String) : List Diagnostic :=
  (engine.lookups name text).filterMap Diagnostic.ofLookup?

------------------------------------------------------------
-- Completion
------------------------------------------------------------

/- A key that may come next, and its value as text. -/
structure CompletionItem where
  label : String
  detail : String
deriving DecidableEq

/- What the path typed before a caret leads to. -/
def draftLookup?
    (engine : Engine)
    (text : String)
    (caret : Nat) : Option Resolution := do
  let document ← engine.current?
  let draft ← Placeholder.draftAt? text caret
  return document.data.resolve draft.parentPath

/- The pairs that may come next. Only an object has any. -/
def candidates
    (engine : Engine)
    (text : String)
    (caret : Nat) : List (String × Json.Node) :=
  match engine.draftLookup? text caret with
  | some (.resolved (.object pairs)) => pairs
  | _ => []

/- The keys that may come next. -/
def completion
    (engine : Engine)
    (text : String)
    (caret : Nat) : List String :=
  (engine.candidates text caret).map Prod.fst

/- The keys that may come next, each with its value. -/
def completionItems
    (engine : Engine)
    (text : String)
    (caret : Nat) : List CompletionItem :=
  (engine.candidates text caret).map fun pair =>
    ⟨pair.1, pair.2.render⟩

------------------------------------------------------------
-- Hover
------------------------------------------------------------

/- What the placeholder at an offset leads to. -/
def hoverLookup?
    (engine : Engine)
    (text : String)
    (offset : Nat) : Option Resolution := do
  let document ← engine.current?
  let occurrence ← Placeholder.occurrenceAt? text offset
  return document.data.resolve occurrence.path

/-
  The value of the placeholder at an offset as text, or what is
  said of its path if that breaks.
-/
def hover
    (engine : Engine)
    (text : String)
    (offset : Nat) : Option String :=
  (engine.hoverLookup? text offset).map fun resolution =>
    match resolution with
    | .resolved node => node.render
    | .broken _ segment => missingKeyMessage segment

end Engine

end DottedRef
