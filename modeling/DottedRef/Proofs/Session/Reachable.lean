import DottedRef.Proofs.Json.Keys
import DottedRef.Proofs.Session.Runs

/-
  This file defines the sessions that can come about and
  proves what they all have in common: a document in force has
  been read from a source, so none of its objects has a key
  twice.

  Key definitions include:
    * `Session.Reachable`
    * `Snapshot.KeysUnique`

  Key theorems include:
    * `Session.Reachable.runSteps`
    * `Session.Reachable.of_closed`
    * `Session.Reachable.keysUnique`
-/

namespace DottedRef

------------------------------------------------------------
-- Reachable Sessions
------------------------------------------------------------

/-
  A session is reachable if single changes lead to it from a
  fresh one. A reload is two of them, so that reloads may
  overlap in any way and a session that waits for its file is
  reachable as well.
-/
inductive Session.Reachable : Session → Prop
  | new
      (configPath : String)
      (channel : Channel)
      (files : FileSystem)
      (logLimit : Option LogLevel) :
      Reachable
        (.new (.new configPath channel) files logLimit)
  | act
      {session : Session}
      (action : Action)
      (h : Reachable session) :
      Reachable (session.act action).1
  | asking
      {session : Session}
      (h : Reachable session) :
      Reachable session.asking
  | finish
      {session : Session}
      (ticket : Ticket)
      (finding : Engine.Finding)
      (h : Reachable session) :
      Reachable (session.finish ticket finding).1
  | dropConfig
      {session : Session}
      (path : String)
      (h : Reachable session) :
      Reachable
        (session.withEngine (session.engine.dropConfig path))
  | record
      {session : Session}
      (entries : List LogEntry)
      (h : Reachable session) :
      Reachable (session.record entries)
  | report
      {performed : Session.Performed (List Row)}
      (h : Reachable performed.session) :
      Reachable (Session.report performed).1

namespace Session

/- Whatever is done to a reachable session, it stays one. -/
theorem reachable_closed :
    StepClosed (fun _ => true)
      (fun first last => first.Reachable → last.Reachable) where
  refl _ h := h
  trans hFirst hLast h := hLast (hFirst h)
  act _ action _ := .act action
  asking _ := .asking
  finish _ ticket finding := .finish ticket finding
  dropConfig _ path := .dropConfig path
  record _ entries := .record entries
  report _ := .report

/- Every run leads from a reachable session to one. -/
theorem Reachable.runSteps
    {session : Session}
    (h : session.Reachable)
    (steps : List Step) :
    (DottedRef.runSteps steps session).1.Reachable :=
  reachable_closed.runSteps steps session
    (allSteps_true steps) h

/-
  A closed relation holds between some fresh session and each
  reachable one.
-/
theorem Reachable.of_closed
    {R : Session → Session → Prop}
    {session : Session}
    (hReachable : session.Reachable)
    (h : StepClosed (fun _ => true) R) :
    ∃ configPath channel files logLimit,
      R (.new (.new configPath channel) files logLimit)
        session := by
  have hNext :
      ∀ {first last}, R first last →
        (∃ configPath channel files logLimit,
          R (.new (.new configPath channel) files logLimit)
            first) →
        ∃ configPath channel files logLimit,
          R (.new (.new configPath channel) files logLimit)
            last := by
    intro first last hLast hFirst
    rcases hFirst with
      ⟨configPath, channel, files, logLimit, hFirst⟩
    exact
      ⟨configPath, channel, files, logLimit,
        h.trans hFirst hLast⟩
  induction hReachable with
  | new configPath channel files logLimit =>
      exact ⟨configPath, channel, files, logLimit, h.refl _⟩
  | act action _ ih => exact hNext (h.act _ action rfl) ih
  | asking _ ih => exact hNext (h.asking _) ih
  | finish ticket finding _ ih =>
      exact hNext (h.finish _ ticket finding) ih
  | dropConfig path _ ih =>
      exact hNext (h.dropConfig _ path) ih
  | record entries _ ih => exact hNext (h.record _ entries) ih
  | report _ ih => exact hNext (h.report _) ih

/- A reachable store is named after the configuration file. -/
theorem Reachable.name
    {session : Session}
    (h : session.Reachable) :
    session.engine.store.name = session.engine.configPath := by
  rcases h.of_closed sameSetting_closed with
    ⟨configPath, channel, files, logLimit, hSame⟩
  exact hSame.name.trans hSame.configPath.symm

end Session

------------------------------------------------------------
-- Documents in Force
------------------------------------------------------------

/- A document that is read has unique keys. -/
theorem Document.keysUnique_of_parse
    {name : String}
    {source : List UInt8}
    {document : Document}
    (h : Document.parse name source = .ok document) :
    document.root.KeysUnique := by
  unfold Document.parse at h
  split at h
  · rename_i root hRoot
    rw [← Except.ok.inj h]
    exact Json.Node.keysUnique_of_parse hRoot
  · simp at h

namespace Snapshot

/- The document of a snapshot, if any, has unique keys. -/
def KeysUnique
    (snapshot : Snapshot) : Prop :=
  ∀ document, snapshot.document? = some document →
    document.root.KeysUnique

/- Without a document there are no keys. -/
theorem keysUnique_absent :
    absent.KeysUnique := by
  intro document h
  simp [document?] at h

/- What a source leaves has unique keys. -/
theorem keysUnique_leftBy
    (name : String)
    (source : List UInt8) :
    (leftBy name source).KeysUnique := by
  intro document h
  unfold leftBy at h
  cases hParse : Document.parse name source with
  | error error =>
      rw [hParse] at h
      simp [document?] at h
  | ok other =>
      rw [hParse] at h
      simp only [document?, Option.some.injEq] at h
      rw [← h]
      exact Document.keysUnique_of_parse hParse

/- What a finding leaves has unique keys. -/
theorem keysUnique_finding
    (name : String)
    (finding : Engine.Finding) :
    (finding.snapshot name).KeysUnique := by
  cases finding with
  | missing => exact keysUnique_absent
  | unreadable reason => exact keysUnique_absent
  | contents bytes => exact keysUnique_leftBy name bytes

end Snapshot

namespace Session

/- What an action leaves has unique keys. -/
theorem keysUnique_of_leaves?
    {session : Session}
    {action : Action}
    {snapshot : Snapshot}
    (h : session.leaves? action = some snapshot) :
    snapshot.KeysUnique := by
  unfold leaves? at h
  split at h
  · rw [← Option.some.inj h]
    exact Snapshot.keysUnique_leftBy _ _
  · rw [← Option.some.inj h]
    exact Snapshot.keysUnique_absent
  · split at h
    · rw [← Option.some.inj h]
      exact Snapshot.keysUnique_leftBy _ _
    · simp at h
  · split at h
    · rw [← Option.some.inj h]
      exact Snapshot.keysUnique_absent
    · simp at h
  · simp at h

/- What a reachable session holds has unique keys. -/
theorem Reachable.keysUnique_snapshot
    {session : Session}
    (h : session.Reachable) :
    session.engine.store.snapshot.KeysUnique := by
  induction h with
  | new => exact Snapshot.keysUnique_absent
  | @act session action _ ih =>
      rw [(acts_act session action).store]
      cases hLeaves : session.leaves? action with
      | none => exact ih
      | some snapshot => exact keysUnique_of_leaves? hLeaves
  | asking _ ih => exact ih
  | finish ticket finding _ ih =>
      rw [finish_store]
      split
      · exact Snapshot.keysUnique_finding _ _
      · exact ih
  | dropConfig path _ _ =>
      simp only [withEngine, Engine.dropConfig,
        Engine.notify_store, Engine.adopt_store, Store.delete]
      exact Snapshot.keysUnique_absent
  | record entries _ ih => exact ih
  | report _ ih => exact ih

/- A document in force has unique keys. -/
theorem Reachable.keysUnique
    {session : Session}
    {document : Document}
    (h : session.Reachable)
    (hLoaded : session.engine.current? = some document) :
    document.root.KeysUnique :=
  h.keysUnique_snapshot document hLoaded

end Session

end DottedRef
