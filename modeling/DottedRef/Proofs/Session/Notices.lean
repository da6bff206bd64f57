import DottedRef.Proofs.Session.Endings
import DottedRef.Proofs.Session.Requests

/-
  This file proves that a user who is told of every change is
  told the truth: unless someone else writes to the store, the
  last notice tells its status, and there is one notice for
  each reload that is not superseded and for each deletion.

  Key definitions include:
    * `Notification.status`
    * `Engine.toldStatus`
    * `Operation.writesStore`

  Key theorems include:
    * `Notice.status_notification`
    * `Session.isTold_closed`
    * `Session.accounts_runSteps`
    * `Session.last_notice_tells_status`
-/

namespace DottedRef

------------------------------------------------------------
-- What Notices Tell
------------------------------------------------------------

/- The ending of what is told of a document in force. -/
def loadedEnding : List Char :=
  " loaded".toList

/- The start of what is told of a source that does not parse. -/
def malformedStart : List Char :=
  "Malformed placeholder configuration: ".toList

/- The status that can be read off the text of a notification. -/
def Notification.status
    (notification : Notification) : Status :=
  let text := notification.message.toList
  match notification.level with
  | .info =>
      if loadedEnding <:+ text then .loaded else .absent
  | .warning => .absent
  | .error =>
      if malformedStart <+: text then .malformed else .absent

/- A document that is loaded is not told of as missing. -/
theorem not_loadedEnding_of_missing
    (path : String) :
    ¬ loadedEnding <:+
      (LoadError.missing path).message.toList := by
  intro hLoaded
  have hMissing :
      " not found".toList <:+
        (LoadError.missing path).message.toList := by
    unfold LoadError.message
    rw [String.toList_append]
    exact List.suffix_append ..
  have hBoth : loadedEnding <:+ " not found".toList :=
    List.suffix_of_suffix_length_le hLoaded hMissing
      (by decide)
  exact absurd hBoth (by decide)

/- A source that does not parse is not told of as unreadable. -/
theorem not_malformedStart_of_unreadable
    (path reason : String) :
    ¬ malformedStart <+:
      (LoadError.unreadable path reason).message.toList := by
  intro hMalformed
  have hUnreadable :
      "Could not read placeholder configuration ".toList <+:
        (LoadError.unreadable path reason).message.toList := by
    unfold LoadError.message
    rw [String.toList_append, String.toList_append,
      String.toList_append, List.append_assoc,
      List.append_assoc]
    exact List.prefix_append ..
  have hBoth :
      malformedStart <+:
        "Could not read placeholder configuration ".toList :=
    List.prefix_of_prefix_length_le hMalformed hUnreadable
      (by decide)
  exact absurd hBoth (by decide)

/- Each notice can be told from the others by its text. -/
theorem Notice.status_notification
    (notice : Notice) :
    notice.notification.status =
      match notice with
      | .loaded _ => .loaded
      | .failed (.missing _) => .absent
      | .failed (.unreadable _ _) => .absent
      | .failed (.malformed _ _ _ _) => .malformed
      | .deleted _ => .absent := by
  cases notice with
  | loaded path =>
      apply if_pos
      unfold notification message
      rw [String.toList_append]
      exact List.suffix_append ..
  | failed error =>
      cases error with
      | malformed name text span reason =>
          apply if_pos
          unfold notification message LoadError.message
          rw [String.toList_append]
          exact List.prefix_append ..
      | unreadable path reason =>
          exact if_neg (not_malformedStart_of_unreadable path reason)
      | missing path =>
          exact if_neg (not_loadedEnding_of_missing path)
  | deleted path => rfl

/- The notice of a verdict tells what the verdict leaves. -/
theorem Engine.Finding.status_verdict
    (path name : String)
    (finding : Finding) :
    let verdict := finding.verdict path name
    verdict.notice.notification.status =
      verdict.snapshot.status := by
  intro verdict
  rw [Notice.status_notification]
  cases finding with
  | missing => rfl
  | unreadable reason => rfl
  | contents bytes =>
      cases hParse : Document.parse name bytes with
      | ok document =>
          simp only [verdict, Finding.verdict, hParse,
            Snapshot.status]
      | error error =>
          rcases exists_malformed_of_parse_eq_error hParse with
            ⟨sourceName, text, span, reason, rfl⟩
          simp only [verdict, Finding.verdict, hParse,
            Snapshot.status]

/- The status that the user was told of last. -/
def Engine.toldStatus
    (engine : Engine) : Status :=
  match engine.notices.getLast? with
  | none => .absent
  | some notice => notice.notification.status

/- What is told last is told. -/
theorem Engine.toldStatus_of_concat
    {engine : Engine}
    {notices : List Notice}
    {notice : Notice}
    (h : engine.notices = notices ++ [notice]) :
    engine.toldStatus = notice.notification.status := by
  unfold toldStatus
  rw [h, List.getLast?_concat]

------------------------------------------------------------
-- Status
------------------------------------------------------------

/- Whether an action may write to the store. -/
def Action.writesStore : Action → Bool
  | storeReload _ => true
  | beginReload => true
  | commit _ _ => true
  | commitAbsent _ => true
  | storeDelete => true
  | _ => false

/- Whether an operation may write to the store past the engine. -/
def Operation.writesStore : Operation → Bool
  | act action => action.writesStore
  | _ => false

namespace Session

/- An action that does not write leaves the snapshot. -/
theorem leaves?_of_not_writesStore
    {action : Action}
    (session : Session)
    (h : action.writesStore = false) :
    session.leaves? action = none := by
  cases action <;> first | rfl | simp [Action.writesStore] at h

/- A session is told if its user was told its status. -/
def IsTold
    (session : Session) : Prop :=
  session.engine.store.status = session.engine.toldStatus

/- A session stays told if neither side changes. -/
theorem IsTold.of_eq
    {first last : Session}
    (hSnapshot :
      last.engine.store.snapshot =
        first.engine.store.snapshot)
    (hNotices : last.engine.notices = first.engine.notices)
    (h : first.IsTold) :
    last.IsTold := by
  unfold IsTold Engine.toldStatus Store.status at h ⊢
  rw [hSnapshot, hNotices]
  exact h

/- Finishing a reload tells what it leaves, if anything. -/
theorem IsTold.finish
    {session : Session}
    (ticket : Ticket)
    (finding : Engine.Finding)
    (h : session.IsTold) :
    (session.finish ticket finding).1.IsTold := by
  cases hCurrent : session.engine.store.isCurrent ticket with
  | true =>
      rcases finish_of_current finding hCurrent with
        ⟨-, hStore, hNotices⟩
      unfold IsTold
      rw [Engine.toldStatus_of_concat hNotices, hStore,
        Engine.Finding.status_verdict]
      rfl
  | false =>
      rcases finish_of_stale finding hCurrent with
        ⟨-, hStore, hNotices⟩
      exact h.of_eq (by rw [hStore]) hNotices

/- Dropping the configuration tells that it is gone. -/
theorem isTold_dropConfig
    (session : Session)
    (path : String) :
    (session.withEngine
      (session.engine.dropConfig path)).IsTold := by
  have hNotices :
      (session.engine.dropConfig path).notices =
        session.engine.notices ++ [.deleted path] :=
    Engine.notify_notices ..
  have hStore :
      (session.engine.dropConfig path).store =
        session.engine.store.delete.store :=
    Engine.notify_store ..
  unfold IsTold withEngine
  rw [Engine.toldStatus_of_concat hNotices, hStore]
  rfl

/- The user is told of all that is done through the engine. -/
theorem isTold_closed :
    StepClosed (fun operation => !operation.writesStore)
      (fun first last => first.IsTold → last.IsTold) where
  refl _ h := h
  trans hFirst hLast h := hLast (hFirst h)
  act session action hAction := by
    have hNone : action.writesStore = false := by
      simpa [Operation.writesStore] using hAction
    apply IsTold.of_eq ?_ (acts_act session action).notices
    rw [(acts_act session action).store,
      leaves?_of_not_writesStore session hNone]
    rfl
  asking _ h := h
  finish _ ticket finding := IsTold.finish ticket finding
  dropConfig session path _ := isTold_dropConfig session path
  record _ _ h := h
  report _ h := h

------------------------------------------------------------
-- Numbers of Notices
------------------------------------------------------------

/-
  Operations account for the notices from one session to
  another if there is one for each reload that was in time and
  one for each deletion.
-/
def Accounts
    (ended : List Ended)
    (first last : Session) : Prop :=
  last.engine.notices.length =
    first.engine.notices.length +
      (ended.countP (·.ending.isReload) +
        ended.countP (·.ending.isDrop))

/- Nothing has to be accounted for without notices. -/
theorem Accounts.of_eq
    {first last : Session}
    (h : last.engine.notices = first.engine.notices) :
    Accounts [] first last := by
  unfold Accounts
  rw [h]
  rfl

/- Operations account on where others have stopped. -/
theorem Accounts.append
    {earlier later : List Ended}
    {first middle last : Session}
    (hFirst : Accounts earlier first middle)
    (hLast : Accounts later middle last) :
    Accounts (earlier ++ later) first last := by
  unfold Accounts at hFirst hLast ⊢
  rw [List.countP_append, List.countP_append]
  omega

/- A reload accounts for its own notice. -/
theorem accounts_finish
    (session last : Session)
    (ticket : Ticket)
    (finding : Engine.Finding) :
    let finished := session.finish ticket finding
    Accounts [⟨.reloaded finished.2, last⟩] session
      finished.1 := by
  intro finished
  unfold Accounts
  cases hCurrent : session.engine.store.isCurrent ticket with
  | true =>
      rcases finish_of_current finding hCurrent with
        ⟨hAnswer, -, hNotices⟩
      have hReload :
          Ending.isReload (.reloaded finished.2) = true := by
        apply Ending.isReload_of_ne
        rw [hAnswer]
        exact Engine.Finding.answer_verdict_ne _ _ finding
      rw [hNotices]
      simp [hReload, Ending.isDrop]
  | false =>
      rcases finish_of_stale finding hCurrent with
        ⟨hAnswer, -, hNotices⟩
      rw [hNotices, hAnswer]
      rfl

section Reloads

variable {session : Session}
variable {meanwhileExists meanwhileRead : Meanwhile ρ}
variable {duringExists duringRead : List Ended}

/- A reload and what ends during its calls account for it. -/
theorem accounts_reload
    (hExists :
      Accounts duringExists session.asking
        (meanwhileExists session.asking).1)
    (hRead :
      Accounts duringRead (meanwhileExists session.asking).1
        (meanwhileRead (meanwhileExists session.asking).1).1)
    (last : Session) :
    let isThere :=
      session.files.contains session.engine.configPath
    let reload :=
      session.reload meanwhileExists meanwhileRead
    Accounts
      ((duringExists ++ if isThere then duringRead else []) ++
        [⟨.reloaded reload.outcome, last⟩])
      session reload.session := by
  intro isThere reload
  -- Asking for the file tells nothing by itself.
  have hFinishing :
      Accounts (duringExists ++ if isThere then duringRead else [])
        session
        (session.finishing isThere meanwhileExists
          meanwhileRead) := by
    unfold finishing
    cases isThere with
    | true => exact hExists.append hRead
    | false => exact hExists.append (Accounts.of_eq rfl)
  rcases
    reload_eq_finish session meanwhileExists meanwhileRead with
    ⟨hSession, hOutcome⟩
  rw [hSession, hOutcome]
  exact hFinishing.append (accounts_finish _ last _ _)

end Reloads

/- What ends in an operation accounts for it. -/
theorem accounts_perform
    {session : Session}
    {meanwhileExists meanwhileRead : Meanwhile ρ}
    {duringExists duringRead : List Ended}
    (operation : Operation)
    (hExists :
      Accounts duringExists session.asking
        (meanwhileExists session.asking).1)
    (hRead :
      Accounts duringRead (meanwhileExists session.asking).1
        (meanwhileRead (meanwhileExists session.asking).1).1)
    (last : Session) :
    Accounts
      (session.endedDuring duringExists duringRead operation ++
        [⟨session.ending operation meanwhileExists
          meanwhileRead, last⟩])
      session
      (session.perform operation meanwhileExists
        meanwhileRead).session := by
  have hRole :=
    session.perform_role operation meanwhileExists
      meanwhileRead
  unfold endedDuring ending
  cases hCase : operation.role session.engine with
  | act action =>
      simp only [hCase] at hRole
      rw [hRole]
      exact
        congrArg List.length (acts_act session action).notices
  | reload =>
      simp only [hCase] at hRole
      rcases hRole with ⟨entries, hSession⟩
      rw [hSession]
      exact accounts_reload hExists hRead last
  | drop path =>
      simp only [hCase] at hRole
      rw [hRole]
      unfold Accounts withEngine Engine.dropConfig
      rw [Engine.notify_notices, List.length_append]
      rfl
  | ignore =>
      simp only [hCase] at hRole
      rcases hRole with ⟨entries, hSession⟩
      rw [hSession]
      exact congrArg List.length rfl

mutual

/- What ends in a step accounts for it. -/
theorem accounts_run :
    ∀ (step : Step) (session : Session),
      Accounts (step.ended session) session
        (step.run session).1
  | .mk operation duringExists duringRead, session => by
      rw [Step.ended, Step.run]
      exact
        accounts_perform operation
          (accounts_runSteps duringExists session.asking)
          (accounts_runSteps duringRead _) _

/- What ends in a run accounts for it. -/
theorem accounts_runSteps :
    ∀ (steps : List Step) (session : Session),
      Accounts (endedBy steps session) session
        (runSteps steps session).1
  | [], session => by
      rw [endedBy, runSteps]
      exact Accounts.of_eq rfl
  | step :: steps, session => by
      rw [endedBy, runSteps]
      exact
        (accounts_run step session).append
          (accounts_runSteps steps _)

end

------------------------------------------------------------
-- The Last Notice
------------------------------------------------------------

/-
  Whenever an operation ends, at any depth, the last notice
  tells the status of the store. There are as many notices as
  there are reloads that end without being superseded and
  deletions of the configuration file.
-/
theorem last_notice_tells_status
    (configPath : String)
    (channel : Channel)
    (files : FileSystem)
    (logLimit : Option LogLevel)
    {steps : List Step}
    (hSteps :
      allSteps (fun operation => !operation.writesStore)
        steps) :
    let session :=
      Session.new (.new configPath channel) files logLimit
    let ended := endedBy steps session
    (∀ operation ∈ ended,
      let engine := operation.session.engine
      engine.store.status = engine.toldStatus) ∧
      (runSteps steps session).1.engine.notices.length =
        ended.countP (·.ending.isReload) +
          ended.countP (·.ending.isDrop) := by
  intro session ended
  constructor
  · intro operation hMem
    have hFirst : session.IsTold := by
      rfl
    exact
      isTold_closed.endedBy steps session hSteps operation
        hMem hFirst
  · have hAccounts := accounts_runSteps steps session
    unfold Accounts at hAccounts
    rw [hAccounts]
    exact Nat.zero_add _

/-
  A start during the first call of a reload supersedes it, and
  only the start tells that there is no file.
-/
theorem last_notice_tells_status_of_start :
    let steps := [Step.mk .reload [.mk .startUp [] []] []]
    let session :=
      Session.new (.new "a.json" .host) (.exact []) none
    allSteps (fun operation => !operation.writesStore)
        steps ∧
      (runSteps steps session).1.engine.notices.length = 1 := by
  intro steps session
  have hSteps :
      allSteps (fun operation => !operation.writesStore)
        steps = true := by
    decide
  have hLast :=
    last_notice_tells_status "a.json" .host (.exact []) none
      hSteps
  refine ⟨hSteps, ?_⟩
  rw [hLast.2]
  rfl

end Session

end DottedRef
