import DottedRef.Proofs.Store.Actions

/-
  This file states what finishing a reload does: everything
  that its finding calls for if its ticket is current, and
  nothing to the store and the user if it is not.

  Key definitions include:
    * `Engine.Verdict`
    * `Engine.Finding.verdict`
    * `Engine.Finding.snapshot`
    * `Session.finishing`
    * `Session.finding`

  Key theorems include:
    * `Session.finish_of_current`
    * `Session.finish_of_stale`
    * `Session.reloadWith_eq_finish`
-/

namespace DottedRef

------------------------------------------------------------
-- Engines
------------------------------------------------------------

namespace Engine

@[simp] theorem record_store
    (engine : Engine)
    (entries : List LogEntry) :
    (engine.record entries).store = engine.store := by
  rfl

@[simp] theorem record_notices
    (engine : Engine)
    (entries : List LogEntry) :
    (engine.record entries).notices = engine.notices := by
  rfl

@[simp] theorem record_configPath
    (engine : Engine)
    (entries : List LogEntry) :
    (engine.record entries).configPath =
      engine.configPath := by
  rfl

@[simp] theorem adopt_store
    (engine : Engine)
    (change : Store.Change α) :
    (engine.adopt change).store = change.store := by
  rfl

@[simp] theorem adopt_notices
    (engine : Engine)
    (change : Store.Change α) :
    (engine.adopt change).notices = engine.notices := by
  rfl

@[simp] theorem adopt_configPath
    (engine : Engine)
    (change : Store.Change α) :
    (engine.adopt change).configPath =
      engine.configPath := by
  rfl

@[simp] theorem notify_store
    (engine : Engine)
    (notice : Notice) :
    (engine.notify notice).store = engine.store := by
  unfold notify
  cases engine.channel <;> rfl

@[simp] theorem notify_notices
    (engine : Engine)
    (notice : Notice) :
    (engine.notify notice).notices =
      engine.notices ++ [notice] := by
  unfold notify
  cases engine.channel <;> rfl

@[simp] theorem notify_configPath
    (engine : Engine)
    (notice : Notice) :
    (engine.notify notice).configPath =
      engine.configPath := by
  unfold notify
  cases engine.channel <;> rfl

------------------------------------------------------------
-- Verdicts
------------------------------------------------------------

/-
  What a reload that is in time answers, leaves in the store
  and tells the user.
-/
structure Verdict where
  answer : Except LoadError Store.Commit
  snapshot : Snapshot
  notice : Notice

/- The verdict on what a reload finds in place of its file. -/
def Finding.verdict
    (path name : String) : Finding → Verdict
  | missing =>
      ⟨.error (.missing path), .absent,
        .failed (.missing path)⟩
  | unreadable reason =>
      ⟨.error (.unreadable path reason), .absent,
        .failed (.unreadable path reason)⟩
  | contents bytes =>
      match Document.parse name bytes with
      | .ok document =>
          ⟨.ok (.applied document), .loaded document,
            .loaded path⟩
      | .error error =>
          ⟨.error error, .malformed, .failed error⟩

/- What a finding leaves in the store. -/
def Finding.snapshot
    (name : String) : Finding → Snapshot
  | missing => .absent
  | unreadable _ => .absent
  | contents bytes => .leftBy name bytes

/- A verdict leaves what its finding does. -/
theorem Finding.snapshot_verdict
    (path name : String)
    (finding : Finding) :
    (finding.verdict path name).snapshot =
      finding.snapshot name := by
  cases finding with
  | missing => rfl
  | unreadable reason => rfl
  | contents bytes =>
      unfold verdict snapshot Snapshot.leftBy
      cases hParse : Document.parse name bytes <;>
        simp only [hParse]

/- Only a syntax error keeps a source from being parsed. -/
theorem isMalformed_of_parse_eq_error
    {name : String}
    {source : List UInt8}
    {error : LoadError}
    (h : Document.parse name source = .error error) :
    error.isMalformed = true := by
  unfold Document.parse at h
  split at h
  · simp at h
  · simp only [Except.error.injEq] at h
    subst h
    rfl

/- The error for a source that is not parsed says so. -/
theorem exists_malformed_of_parse_eq_error
    {name : String}
    {source : List UInt8}
    {error : LoadError}
    (h : Document.parse name source = .error error) :
    ∃ sourceName text span reason,
      error = .malformed sourceName text span reason := by
  have hMalformed := isMalformed_of_parse_eq_error h
  cases error with
  | malformed sourceName text span reason =>
      exact ⟨sourceName, text, span, reason, rfl⟩
  | unreadable _ _ =>
      simp [LoadError.isMalformed] at hMalformed
  | missing _ => simp [LoadError.isMalformed] at hMalformed

/- No verdict is that a reload was superseded. -/
theorem Finding.answer_verdict_ne
    (path name : String)
    (finding : Finding) :
    (finding.verdict path name).answer ≠ .ok .superseded := by
  cases finding with
  | missing => simp [verdict]
  | unreadable reason => simp [verdict]
  | contents bytes =>
      unfold verdict
      cases hParse : Document.parse name bytes <;>
        simp [hParse]

end Engine

------------------------------------------------------------
-- Finishing
------------------------------------------------------------

namespace Session

/- A reload that is in time has its verdict carried out. -/
theorem finish_of_current
    {session : Session}
    {ticket : Ticket}
    (finding : Engine.Finding)
    (h : session.engine.store.isCurrent ticket = true) :
    let verdict :=
      finding.verdict session.engine.configPath
        session.engine.store.name
    let finished := session.finish ticket finding
    finished.2 = verdict.answer ∧
      finished.1.engine.store =
        { session.engine.store with
          snapshot := verdict.snapshot } ∧
      finished.1.engine.notices =
        session.engine.notices ++ [verdict.notice] := by
  cases finding with
  | missing =>
      simp [finish, Engine.finishReload, Engine.finishWithout,
        Store.commitAbsent, h, Engine.Finding.verdict,
        withEngine]
  | unreadable reason =>
      simp [finish, Engine.finishReload, Engine.finishWithout,
        Store.commitAbsent, h, Engine.Finding.verdict,
        withEngine]
  | contents bytes =>
      cases hParse :
          Document.parse session.engine.store.name bytes <;>
        simp [finish, Engine.finishReload, Engine.finishWith,
          Store.commit, Store.apply, h, hParse,
          Engine.Finding.verdict, withEngine, Except.map,
          Snapshot.ofParsed]

/- A reload that comes too late is only answered. -/
theorem finish_of_stale
    {session : Session}
    {ticket : Ticket}
    (finding : Engine.Finding)
    (h : session.engine.store.isCurrent ticket = false) :
    let finished := session.finish ticket finding
    finished.2 = .ok .superseded ∧
      finished.1.engine.store = session.engine.store ∧
      finished.1.engine.notices = session.engine.notices := by
  cases finding <;>
    simp [finish, Engine.finishReload, Engine.finishWithout,
      Engine.finishWith, Store.commitAbsent, Store.commit, h,
      withEngine]

/- Finishing a reload changes at most the snapshot. -/
theorem finish_store
    (session : Session)
    (ticket : Ticket)
    (finding : Engine.Finding) :
    (session.finish ticket finding).1.engine.store =
      if session.engine.store.isCurrent ticket then
        { session.engine.store with
          snapshot :=
            finding.snapshot session.engine.store.name }
      else
        session.engine.store := by
  split
  · rename_i hCurrent
    rw [(finish_of_current finding hCurrent).2.1,
      Engine.Finding.snapshot_verdict]
  · rename_i hStale
    exact (finish_of_stale finding (by simpa using hStale)).2.1

/- Finishing a reload keeps the configuration path. -/
theorem finish_configPath
    (session : Session)
    (ticket : Ticket)
    (finding : Engine.Finding) :
    (session.finish ticket finding).1.engine.configPath =
      session.engine.configPath := by
  have hWithout :
      ∀ error,
        (session.engine.finishWithout ticket
          error).1.configPath = session.engine.configPath := by
    intro error
    unfold Engine.finishWithout
    dsimp only
    split <;> simp
  cases finding with
  | missing => exact hWithout _
  | unreadable reason => exact hWithout _
  | contents bytes =>
      unfold finish Engine.finishReload Engine.finishWith
      dsimp only
      split <;> simp [withEngine]

------------------------------------------------------------
-- Reloads
------------------------------------------------------------

/- A session in which both calls of a reload are answered. -/
def finishing
    (session : Session)
    (isThere : Bool)
    (meanwhileExists meanwhileRead : Meanwhile ρ) : Session :=
  let asked := (meanwhileExists session.asking).1
  if isThere then (meanwhileRead asked).1 else asked

/- What both answers amount to. -/
def finding
    (isThere : Bool)
    (answer : Except String (List UInt8)) : Engine.Finding :=
  if isThere then
    match answer with
    | .ok bytes => .contents bytes
    | .error reason => .unreadable reason
  else
    .missing

/- A reload is finished once both calls are answered. -/
theorem reloadWith_eq_finish
    (session : Session)
    (isThere : Bool)
    (reading : Session → Except String (List UInt8))
    (meanwhileExists meanwhileRead : Meanwhile ρ) :
    let reload :=
      session.reloadWith isThere reading meanwhileExists
        meanwhileRead
    let finished :=
      (session.finishing isThere meanwhileExists
        meanwhileRead).finish session.engine.startReload.2
        (finding isThere
          (reading (meanwhileExists session.asking).1))
    reload.session = finished.1 ∧
      reload.outcome = finished.2 := by
  cases isThere with
  | false => exact ⟨rfl, rfl⟩
  | true =>
      unfold finding
      cases hAnswer :
          reading (meanwhileExists session.asking).1 <;>
        simp [reloadWith, finishing, findingOf, hAnswer]

end Session

end DottedRef
