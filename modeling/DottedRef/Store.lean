import DottedRef.Log

/-
  This file defines the store that holds the configuration in
  force. Reloads may overlap: each request takes a generation
  of its own, and only the one that took the newest generation
  may change what the store holds.

  Key definitions include:
    * `Status`
    * `Snapshot`
    * `Ticket`
    * `Store`
    * `Store.Change`
    * `Store.reload`
    * `Store.beginReload`
    * `Store.commit`
    * `Store.commitAbsent`
    * `Store.delete`
    * `Store.current?`
    * `Store.status`
    * `Store.suffixes`
-/

namespace DottedRef

------------------------------------------------------------
-- Contents
------------------------------------------------------------

/- Whether there is a configuration, and why there is none. -/
inductive Status where
  | loaded
  | absent
  | malformed
deriving DecidableEq

/- The name of a status. -/
def Status.name : Status → String
  | loaded => "loaded"
  | absent => "absent"
  | malformed => "malformed"

/- What the last request left in the store. -/
inductive Snapshot where
  | loaded (document : Document)
  | absent
  | malformed

namespace Snapshot

/- The document of a snapshot. -/
def document? : Snapshot → Option Document
  | loaded document => some document
  | absent => none
  | malformed => none

/- The status of a snapshot. -/
def status : Snapshot → Status
  | loaded _ => .loaded
  | absent => .absent
  | malformed => .malformed

/- What loading a document leaves in the store. -/
def ofParsed : Except LoadError Document → Snapshot
  | .ok document => loaded document
  | .error _ => malformed

end Snapshot

/- The right to finish a reload that has started. -/
structure Ticket where
  generation : UInt64
deriving DecidableEq

/-
  The configuration in force, the name it is reported under,
  and the newest generation that has been taken.
-/
structure Store where
  name : String
  snapshot : Snapshot
  generation : UInt64

namespace Store

/- The name of a store that was given none. -/
def defaultName : String :=
  "placeholder.json"

/- A store that nothing has been loaded into. -/
def empty
    (name : String) : Store :=
  ⟨name, .absent, 0⟩

/- The document in force. -/
def current?
    (store : Store) : Option Document :=
  store.snapshot.document?

/- The status of a store. -/
def status
    (store : Store) : Status :=
  store.snapshot.status

/- The endings of names in force. -/
def suffixes
    (store : Store) : List String :=
  match store.current? with
  | some document => document.suffixes
  | none => []

/- Whether no request has come after a ticket's. -/
def isCurrent
    (store : Store)
    (ticket : Ticket) : Bool :=
  store.generation == ticket.generation

------------------------------------------------------------
-- Requests
------------------------------------------------------------

/- What a request makes of a store, answers and logs. -/
structure Change (α : Type) where
  store : Store
  answer : α
  log : List LogEntry

/- What comes of finishing a reload. -/
inductive Commit where
  | applied (document : Document)
  | superseded

/- What is logged of a document that was read. -/
def loadLog : Except LoadError Document → List LogEntry
  | .ok _ => [.loaded]
  | .error error => [.rejected error]

/-
  Put what was read into a store. A document that could not be
  read takes the previous one's place all the same.
-/
def apply
    (store : Store)
    (parsed : Except LoadError Document) :
    Change (Except LoadError Document) :=
  ⟨{ store with snapshot := .ofParsed parsed },
    parsed, loadLog parsed⟩

/- Take the next generation. -/
def advance
    (store : Store) : Store :=
  { store with generation := store.generation + 1 }

/- Load a source at once, ahead of all that has started. -/
def reload
    (store : Store)
    (source : List UInt8) :
    Change (Except LoadError Document) :=
  store.advance.apply (Document.parse store.name source)

/- Start a reload that is finished later. -/
def beginReload
    (store : Store) : Change Ticket :=
  ⟨store.advance, ⟨store.advance.generation⟩,
    [.reloadStarted store.advance.generation]⟩

/-
  Finish a reload with a source. A source that comes too late
  is not even parsed.
-/
def commit
    (store : Store)
    (ticket : Ticket)
    (source : List UInt8) :
    Change (Except LoadError Commit) :=
  if store.isCurrent ticket then
    let change := store.apply (Document.parse store.name source)
    ⟨change.store, change.answer.map .applied, change.log⟩
  else
    ⟨store, .ok .superseded,
      [.supersededBeforeParsing ticket.generation]⟩

/-
  Finish a reload that found no usable file. The answer is
  whether it came in time.
-/
def commitAbsent
    (store : Store)
    (ticket : Ticket) : Change Bool :=
  if store.isCurrent ticket then
    ⟨{ store with snapshot := .absent }, true, []⟩
  else
    ⟨store, false, [.supersededBeforeClearing ticket.generation]⟩

/- Drop the configuration, ahead of all that has started. -/
def delete
    (store : Store) : Change Unit :=
  ⟨{ store.advance with snapshot := .absent }, (),
    if store.status = .absent then [] else [.cleared]⟩

end Store

end DottedRef
