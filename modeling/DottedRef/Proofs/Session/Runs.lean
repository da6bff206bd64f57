import DottedRef.Proofs.Session.Reload
import DottedRef.Proofs.Store.Actions

/-
  This file proves by one induction what runs of steps keep,
  however they are nested: a relation between sessions that
  every single change keeps is kept by every run.

  Key definitions include:
    * `Role`
    * `Operation.role`
    * `Step.all`
    * `allSteps`
    * `StepClosed`
    * `Session.SameSetting`

  Key theorems include:
    * `Session.perform_role`
    * `StepClosed.runSteps`
    * `sameSetting_runSteps`
    * `tickets_runSteps`
-/

namespace DottedRef

------------------------------------------------------------
-- Roles
------------------------------------------------------------

/- What an operation comes down to. -/
inductive Role where
  | act (action : Action)
  | reload
  | drop (path : String)
  | ignore

/-
  The role of an operation. An event for the configuration
  file is a reload or a deletion, and others are ignored.
-/
def Operation.role
    (engine : Engine) : Operation → Role
  | act action => .act action
  | startUp => .reload
  | reload => .reload
  | event kind path =>
      if engine.watches path then
        match kind with
        | .deleted => .drop path
        | _ => .reload
      else
        .ignore

/- Only an action has the role of one. -/
theorem Operation.eq_act_of_role
    {engine : Engine}
    {operation : Operation}
    {action : Action}
    (h : operation.role engine = .act action) :
    operation = .act action := by
  cases operation with
  | act other =>
      unfold role at h
      rw [Role.act.inj h]
  | startUp => simp [role] at h
  | reload => simp [role] at h
  | event kind path =>
      by_cases hWatched : engine.watches path = true
      · cases kind <;> simp [role, hWatched] at h
      · simp [role, hWatched] at h

/- Up to the log, an operation does what its role says. -/
theorem Session.perform_role
    (session : Session)
    (operation : Operation)
    (meanwhileExists meanwhileRead : Meanwhile ρ) :
    let performed :=
      session.perform operation meanwhileExists meanwhileRead
    match operation.role session.engine with
    | .act action => performed.session = (session.act action).1
    | .reload =>
        ∃ entries,
          performed.session =
            (session.reload meanwhileExists
              meanwhileRead).session.record entries
    | .drop path =>
        performed.session =
          session.withEngine (session.engine.dropConfig path)
    | .ignore =>
        ∃ entries,
          performed.session = session.record entries := by
  have hNothing :
      ∀ session : Session, session = session.record [] := by
    intro session
    simp [Session.record, Engine.record, withEngine]
  cases operation with
  | act action => rfl
  | startUp => exact ⟨[], hNothing _⟩
  | reload => exact ⟨[], hNothing _⟩
  | event kind path =>
      unfold Operation.role perform react
      by_cases hWatched : session.engine.watches path = true
      · simp only [hWatched, if_true]
        cases kind with
        | deleted => rfl
        | created => exact ⟨_, rfl⟩
        | changed => exact ⟨_, rfl⟩
      · simp only [hWatched]
        exact ⟨_, rfl⟩

------------------------------------------------------------
-- Operations at Any Depth
------------------------------------------------------------

mutual

/- Whether a step's operations at any depth have a property. -/
def Step.all
    (p : Operation → Bool) : Step → Bool
  | .mk operation duringExists duringRead =>
      p operation && allSteps p duringExists &&
        allSteps p duringRead

/- Whether operations of steps at any depth have a property. -/
def allSteps
    (p : Operation → Bool) : List Step → Bool
  | [] => true
  | step :: steps => step.all p && allSteps p steps

end

mutual

/- Every step's operations have a trivial property. -/
theorem Step.all_true :
    ∀ step : Step, step.all (fun _ => true)
  | .mk operation duringExists duringRead => by
      rw [Step.all, allSteps_true duringExists,
        allSteps_true duringRead]
      rfl

/- All operations of steps have a trivial property. -/
theorem allSteps_true :
    ∀ steps : List Step, allSteps (fun _ => true) steps
  | [] => rfl
  | step :: steps => by
      rw [allSteps, Step.all_true step, allSteps_true steps]
      rfl

end

/- Whether an operation gives out a ticket to its caller. -/
def Operation.givesTicket : Operation → Bool
  | act action => action.givesTicket
  | _ => false

------------------------------------------------------------
-- Closed Relations
------------------------------------------------------------

/-
  A relation is closed under operations with a property if it
  is a preorder that holds across every single change of a
  session: doing an action, starting and finishing a reload,
  dropping the configuration, logging and reporting.
-/
structure StepClosed
    (p : Operation → Bool)
    (R : Session → Session → Prop) : Prop where
  refl : ∀ session, R session session
  trans :
    ∀ {first middle last},
      R first middle → R middle last → R first last
  act :
    ∀ session action, p (.act action) →
      R session (session.act action).1
  asking : ∀ session, R session session.asking
  finish :
    ∀ session ticket finding,
      R session (session.finish ticket finding).1
  dropConfig :
    ∀ session path,
      R session
        (session.withEngine (session.engine.dropConfig path))
  record : ∀ session entries, R session (session.record entries)
  report :
    ∀ performed,
      R performed.session (Session.report performed).1

namespace StepClosed

variable {p : Operation → Bool}
variable {R : Session → Session → Prop}

/- A closed relation holds across a reload. -/
theorem reload
    (h : StepClosed p R)
    {meanwhileExists meanwhileRead : Session.Meanwhile ρ}
    (hExists : ∀ session, R session (meanwhileExists session).1)
    (hRead : ∀ session, R session (meanwhileRead session).1)
    (session : Session) :
    R session
      (session.reload meanwhileExists meanwhileRead).session := by
  have hAsked :
      R session (meanwhileExists session.asking).1 :=
    h.trans (h.asking session) (hExists session.asking)
  unfold Session.reload
  rw [(Session.reloadWith_eq_finish ..).1]
  refine h.trans ?_ (h.finish _ _ _)
  unfold Session.finishing
  split
  · exact h.trans hAsked (hRead _)
  · exact hAsked

/- A closed relation holds across an operation. -/
theorem perform
    (h : StepClosed p R)
    {operation : Operation}
    (hOperation : p operation)
    {meanwhileExists meanwhileRead : Session.Meanwhile ρ}
    (hExists : ∀ session, R session (meanwhileExists session).1)
    (hRead : ∀ session, R session (meanwhileRead session).1)
    (session : Session) :
    R session
      (session.perform operation meanwhileExists
        meanwhileRead).session := by
  have hRole :=
    session.perform_role operation meanwhileExists
      meanwhileRead
  cases hCase : operation.role session.engine with
  | act action =>
      simp only [hCase] at hRole
      rw [hRole]
      apply h.act session action
      rw [← Operation.eq_act_of_role hCase]
      exact hOperation
  | reload =>
      simp only [hCase] at hRole
      rcases hRole with ⟨entries, hSession⟩
      rw [hSession]
      exact
        h.trans (h.reload hExists hRead session)
          (h.record _ entries)
  | drop path =>
      simp only [hCase] at hRole
      rw [hRole]
      exact h.dropConfig session path
  | ignore =>
      simp only [hCase] at hRole
      rcases hRole with ⟨entries, hSession⟩
      rw [hSession]
      exact h.record session entries

mutual

/- A closed relation holds across a step. -/
theorem run
    (h : StepClosed p R) :
    ∀ (step : Step) (session : Session),
      step.all p → R session (step.run session).1
  | .mk operation duringExists duringRead, session, hAll => by
      simp only [Step.all, Bool.and_eq_true] at hAll
      rcases hAll with ⟨⟨hOperation, hExists⟩, hRead⟩
      rw [Step.run]
      refine
        h.trans (h.perform hOperation ?_ ?_ session)
          (h.report _)
      · intro asking
        exact runSteps h duringExists asking hExists
      · intro asked
        exact runSteps h duringRead asked hRead

/- A closed relation holds across a run. -/
theorem runSteps
    (h : StepClosed p R) :
    ∀ (steps : List Step) (session : Session),
      allSteps p steps →
        R session (DottedRef.runSteps steps session).1
  | [], session, _ => by
      rw [DottedRef.runSteps]
      exact h.refl session
  | step :: steps, session, hAll => by
      simp only [allSteps, Bool.and_eq_true] at hAll
      rw [DottedRef.runSteps]
      exact
        h.trans (run h step session hAll.1)
          (runSteps h steps _ hAll.2)

end

end StepClosed

------------------------------------------------------------
-- Settings
------------------------------------------------------------

/-
  Sessions have the same setting if their engines read the
  same file and report it under the same name.
-/
structure Session.SameSetting
    (first last : Session) : Prop where
  configPath :
    last.engine.configPath = first.engine.configPath
  name : last.engine.store.name = first.engine.store.name

namespace Session

/- Nothing changes the setting of a session. -/
theorem sameSetting_closed :
    StepClosed (fun _ => true) SameSetting where
  refl session := ⟨rfl, rfl⟩
  trans hFirst hLast :=
    ⟨hLast.configPath.trans hFirst.configPath,
      hLast.name.trans hFirst.name⟩
  act session action _ :=
    ⟨(acts_act session action).configPath,
      by rw [(acts_act session action).store]⟩
  asking session := ⟨rfl, rfl⟩
  finish session ticket finding := by
    refine ⟨finish_configPath session ticket finding, ?_⟩
    rw [finish_store]
    split <;> rfl
  dropConfig session path := by
    constructor <;>
      simp [withEngine, Engine.dropConfig, Store.delete,
        Store.advance]
  record session entries := ⟨rfl, rfl⟩
  report performed := ⟨rfl, rfl⟩

/- Every run keeps the setting of its session. -/
theorem sameSetting_runSteps
    (steps : List Step)
    (session : Session) :
    session.SameSetting (runSteps steps session).1 :=
  sameSetting_closed.runSteps steps session (allSteps_true steps)

/- No tickets are given out but by actions that do so. -/
theorem tickets_closed :
    StepClosed (fun operation => !operation.givesTicket)
      (fun first last => last.tickets = first.tickets) where
  refl session := rfl
  trans hFirst hLast := hLast.trans hFirst
  act session action hAction := by
    have hNone : action.givesTicket = false := by
      simpa [Operation.givesTicket] using hAction
    rw [(acts_act session action).tickets, hNone]
    exact List.append_nil _
  asking session := rfl
  finish session ticket finding := rfl
  dropConfig session path := rfl
  record session entries := rfl
  report performed := rfl

/- A run that gives out no ticket leaves the tickets. -/
theorem tickets_runSteps
    {steps : List Step}
    (hSteps :
      allSteps (fun operation => !operation.givesTicket) steps)
    (session : Session) :
    (runSteps steps session).1.tickets = session.tickets :=
  tickets_closed.runSteps steps session hSteps

end Session

end DottedRef
