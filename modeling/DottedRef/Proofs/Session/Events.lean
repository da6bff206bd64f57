import DottedRef.Proofs.Location.Destination
import DottedRef.Proofs.Session.Reload

/-
  This file proves which events a session acts on: those for a
  path that names the same place as the configuration path.
  Every other event leaves all but the log as it is.

  Key definitions include:
    * `Session.ActsOn`
    * `Session.Ignores`

  Key theorems include:
    * `Session.not_ignores_of_actsOn`
    * `Session.event_filter_exact`
-/

namespace DottedRef

namespace Session

------------------------------------------------------------
-- Reactions
------------------------------------------------------------

/-
  A session acts on an event if it drops its configuration
  and tells the user that the file was deleted, or if it
  reloads, in which case the file system is asked and other
  steps may run meanwhile.
-/
def ActsOn
    (session : Session)
    (kind : EventKind)
    (path : String)
    (meanwhileExists meanwhileRead : Meanwhile ρ)
    (performed : Performed ρ) : Prop :=
  let engine := performed.session.engine
  match kind with
  | .deleted =>
      engine.store = session.engine.store.delete.store ∧
        engine.notices =
          session.engine.notices ++ [.deleted path]
  | _ =>
      let reload := session.reload meanwhileExists meanwhileRead
      engine.store = reload.session.engine.store ∧
        engine.notices = reload.session.engine.notices ∧
        performed.duringExists = reload.duringExists ∧
        performed.duringRead = reload.duringRead

/-
  A session ignores an event if no call to the file system is
  made and everything stays as it is: the snapshot and the
  generation, by which all tickets that were given out count
  as before, the notices, and the files.
-/
structure Ignores
    (session : Session)
    (performed : Performed ρ) : Prop where
  store : performed.session.engine.store = session.engine.store
  tickets : performed.session.tickets = session.tickets
  notices :
    performed.session.engine.notices = session.engine.notices
  files : performed.session.files = session.files
  duringExists : performed.duringExists = none
  duringRead : performed.duringRead = none

/- A reload asks the file system. -/
theorem isSome_duringExists_reload
    (session : Session)
    (meanwhileExists meanwhileRead : Meanwhile ρ) :
    (session.reload meanwhileExists
      meanwhileRead).duringExists.isSome := by
  unfold reload reloadWith
  dsimp only
  split <;> rfl

/- A deletion takes a new generation. -/
theorem delete_store_ne
    (store : Store) :
    store.delete.store ≠ store := by
  intro h
  have hGeneration : store.generation + 1 = store.generation :=
    congrArg Store.generation h
  simp at hGeneration

/- An event that is acted on is not ignored. -/
theorem not_ignores_of_actsOn
    {session : Session}
    {kind : EventKind}
    {path : String}
    {meanwhileExists meanwhileRead : Meanwhile ρ}
    {performed : Performed ρ}
    (h :
      session.ActsOn kind path meanwhileExists meanwhileRead
        performed) :
    ¬ session.Ignores performed := by
  intro hIgnores
  have hReload :
      performed.duringExists ≠
        (session.reload meanwhileExists
          meanwhileRead).duringExists := by
    intro hCall
    have hSome :=
      session.isSome_duringExists_reload meanwhileExists
        meanwhileRead
    rw [← hCall, hIgnores.duringExists] at hSome
    simp at hSome
  cases kind with
  | deleted =>
      exact delete_store_ne _ (h.1.symm.trans hIgnores.store)
  | created => exact hReload h.2.2.1
  | changed => exact hReload h.2.2.1

/- An event for the configuration file is acted on. -/
theorem actsOn_of_watches
    {session : Session}
    {path : String}
    (kind : EventKind)
    (meanwhileExists meanwhileRead : Meanwhile ρ)
    (h : session.engine.watches path = true) :
    session.ActsOn kind path meanwhileExists meanwhileRead
      (session.perform (.event kind path) meanwhileExists
        meanwhileRead) := by
  unfold perform react
  simp only [h, if_true]
  cases kind with
  | deleted =>
      exact ⟨Engine.notify_store .., Engine.notify_notices ..⟩
  | created => exact ⟨rfl, rfl, rfl, rfl⟩
  | changed => exact ⟨rfl, rfl, rfl, rfl⟩

/- An event for another file is ignored. -/
theorem ignores_of_not_watches
    {session : Session}
    {path : String}
    (kind : EventKind)
    (meanwhileExists meanwhileRead : Meanwhile ρ)
    (h : session.engine.watches path = false) :
    session.Ignores
      (session.perform (.event kind path) meanwhileExists
        meanwhileRead) := by
  unfold perform react
  simp only [h]
  constructor <;> rfl

------------------------------------------------------------
-- The Event Filter
------------------------------------------------------------

/-
  Normalizing a path keeps where it leads from every
  directory, and makes paths equal exactly if they lead to the
  same from every directory. So an event is acted on if its
  path names the same place as the configuration path, and is
  ignored if it does not.
-/
theorem event_filter_exact
    (first last : String)
    (session : Session)
    (kind : EventKind)
    (path : String)
    (meanwhileExists meanwhileRead : Meanwhile ρ) :
    let performed :=
      session.perform (.event kind path) meanwhileExists
        meanwhileRead
    let configPath := session.engine.configPath
    (∀ directory,
        Location.destination (Location.normalizePath first)
            directory =
          Location.destination first directory) ∧
      (Location.normalizePath first =
          Location.normalizePath last ↔
        Location.SamePlace first last) ∧
      (session.ActsOn kind path meanwhileExists meanwhileRead
          performed ↔
        Location.SamePlace path configPath) ∧
      (session.Ignores performed ↔
        ¬ Location.SamePlace path configPath) := by
  intro performed configPath
  have hWatches :
      session.engine.watches path = true ↔
        Location.SamePlace path configPath := by
    unfold Engine.watches
    rw [decide_eq_true_iff]
    exact Location.normalizePath_eq_iff
  refine
    ⟨Location.destination_normalizePath first,
      Location.normalizePath_eq_iff, ?_, ?_⟩
  · rw [← hWatches]
    constructor
    · intro hActs
      cases hCase : session.engine.watches path with
      | true => rfl
      | false =>
          exact
            absurd
              (ignores_of_not_watches kind meanwhileExists
                meanwhileRead hCase)
              (not_ignores_of_actsOn hActs)
    · exact actsOn_of_watches kind meanwhileExists meanwhileRead
  · rw [← hWatches, Bool.not_eq_true]
    constructor
    · intro hIgnores
      cases hCase : session.engine.watches path with
      | false => rfl
      | true =>
          exact
            absurd hIgnores
              (not_ignores_of_actsOn
                (actsOn_of_watches kind meanwhileExists
                  meanwhileRead hCase))
    · exact
        ignores_of_not_watches kind meanwhileExists
          meanwhileRead

end Session

end DottedRef
