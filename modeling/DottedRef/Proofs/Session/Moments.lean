import DottedRef.Proofs.Session.Endings

/-
  This file lists what can be seen of a run: for each
  operation, in the order in which they end, its answer,
  whether it has set the snapshot, and the engine it leaves.
  Operations that run during the calls of a reload are listed
  before the reload. The answers and statuses that a run
  reports are those of its moments.

  Key definitions include:
    * `Session.sets`
    * `Moment`
    * `Step.moments`
    * `momentsOf`
    * `Row.reports`

  Key theorems include:
    * `Session.perform_map`
    * `Session.run_eq_perform`
    * `reportsOf_runSteps`
-/

namespace DottedRef

------------------------------------------------------------
-- Moments
------------------------------------------------------------

/-
  Whether an operation sets the snapshot of a session: an
  action that takes effect on it, a reload that is not
  superseded, or a deletion of the configuration file.
-/
def Session.sets
    (session : Session)
    (operation : Operation)
    (meanwhileExists meanwhileRead : Meanwhile ρ) : Bool :=
  match operation.role session.engine with
  | .act action => (session.leaves? action).isSome
  | .reload =>
      (session.ending operation meanwhileExists
        meanwhileRead).isReload
  | .drop _ => true
  | .ignore => false

/- What can be seen when an operation ends. -/
structure Moment where
  answer : Answer
  sets : Bool
  engine : Engine

/- What was seen during both calls of a reload. -/
def Session.Reload.during
    (reload : Session.Reload (List Moment)) : List Moment :=
  reload.duringExists.getD [] ++ reload.duringRead.getD []

/- What was seen during both calls of an operation. -/
def Session.Performed.during
    (performed : Session.Performed (List Moment)) :
    List Moment :=
  performed.duringExists.getD [] ++
    performed.duringRead.getD []

mutual

/- The moments of a step, at any depth. -/
def Step.moments : Step → Session → List Moment
  | .mk operation duringExists duringRead, session =>
      let watchExists : Session.Meanwhile (List Moment) :=
        fun asking =>
          ((runSteps duringExists asking).1,
            momentsOf duringExists asking)
      let watchRead : Session.Meanwhile (List Moment) :=
        fun asked =>
          ((runSteps duringRead asked).1,
            momentsOf duringRead asked)
      let performed :=
        session.perform operation watchExists watchRead
      performed.during ++
        [⟨performed.answer,
          session.sets operation watchExists watchRead,
          performed.session.engine⟩]

/- The moments of steps, at any depth. -/
def momentsOf : List Step → Session → List Moment
  | [], _ => []
  | step :: steps, session =>
      step.moments session ++
        momentsOf steps (step.run session).1

end

/- Steps that run during a call, with their moments. -/
def watching
    (steps : List Step) : Session.Meanwhile (List Moment) :=
  fun session =>
    ((runSteps steps session).1, momentsOf steps session)

/- The moments of a step in terms of those during its calls. -/
theorem Step.moments_mk
    (operation : Operation)
    (duringExists duringRead : List Step)
    (session : Session) :
    let performed :=
      session.perform operation (watching duringExists)
        (watching duringRead)
    (Step.mk operation duringExists duringRead).moments
        session =
      performed.during ++
        [⟨performed.answer,
          session.sets operation (watching duringExists)
            (watching duringRead),
          performed.session.engine⟩] := by
  rw [Step.moments]
  rfl

------------------------------------------------------------
-- What Is Kept During Calls
------------------------------------------------------------

namespace Session

variable {ρ σ : Type}

/- Keep something else of what runs during a call. -/
def Meanwhile.map
    (keep : ρ → σ)
    (meanwhile : Meanwhile ρ) : Meanwhile σ :=
  fun session =>
    ((meanwhile session).1, keep (meanwhile session).2)

/- Keep something else of the calls of a reload. -/
def Reload.map
    (keep : ρ → σ)
    (reload : Reload ρ) : Reload σ :=
  ⟨reload.session, reload.outcome,
    reload.duringExists.map keep, reload.duringRead.map keep⟩

/- Keep something else of the calls of an operation. -/
def Performed.map
    (keep : ρ → σ)
    (performed : Performed ρ) : Performed σ :=
  ⟨performed.session, performed.answer,
    performed.duringExists.map keep,
    performed.duringRead.map keep⟩

section Keep

variable (keep : ρ → σ)
variable (session : Session)
variable (meanwhileExists meanwhileRead : Meanwhile ρ)

/- A reload does not look at what is kept of its calls. -/
theorem reload_map :
    session.reload (meanwhileExists.map keep)
        (meanwhileRead.map keep) =
      (session.reload meanwhileExists meanwhileRead).map
        keep := by
  unfold reload reloadWith
  dsimp only
  split <;> rfl

/- Neither does any operation. -/
theorem perform_map
    (operation : Operation) :
    session.perform operation (meanwhileExists.map keep)
        (meanwhileRead.map keep) =
      (session.perform operation meanwhileExists
        meanwhileRead).map keep := by
  cases operation with
  | act action => rfl
  | startUp =>
      unfold perform
      rw [reload_map]
      rfl
  | reload =>
      unfold perform
      rw [reload_map]
      rfl
  | event kind path =>
      unfold perform react
      dsimp only
      rw [reload_map]
      split
      · cases kind <;> rfl
      · rfl

end Keep

/- A step leaves what its operation leaves, with a report. -/
theorem run_eq_perform
    (operation : Operation)
    (duringExists duringRead : List Step)
    (session : Session) :
    let performed :=
      session.perform operation (watching duringExists)
        (watching duringRead)
    ((Step.mk operation duringExists duringRead).run
        session).1 =
      { performed.session with
        noticesReported :=
          performed.session.engine.notices.length
        entriesReported :=
          performed.session.engine.log.length } := by
  intro performed
  -- With nothing kept, both runs of the calls are the same.
  have hRows :=
    session.perform_map (fun _ => ()) (runSteps duringExists)
      (runSteps duringRead) operation
  have hMoments :=
    session.perform_map (fun _ => ()) (watching duringExists)
      (watching duringRead) operation
  have hSession :
      (session.perform operation (runSteps duringExists)
          (runSteps duringRead)).session =
        performed.session :=
    congrArg Performed.session (hRows.symm.trans hMoments)
  rw [Step.run]
  unfold report
  dsimp only
  rw [hSession]

end Session

------------------------------------------------------------
-- Reports
------------------------------------------------------------

/- What is reported when an operation ends. -/
def Moment.report
    (moment : Moment) : Answer × Status :=
  (moment.answer, moment.engine.store.status)

mutual

/- The answers and statuses of a row, inner rows first. -/
def Row.reports : Row → List (Answer × Status)
  | .mk answer status _ _ duringExists duringRead =>
      reportsDuring duringExists ++ reportsDuring duringRead ++
        [(answer, status)]

/- The answers and statuses of rows. -/
def reportsOf : List Row → List (Answer × Status)
  | [] => []
  | row :: rows => row.reports ++ reportsOf rows

/- The answers and statuses of the rows of a call, if any. -/
def reportsDuring :
    Option (List Row) → List (Answer × Status)
  | none => []
  | some rows => reportsOf rows

end

/- The rows of a call are those that were kept, if any. -/
theorem reportsDuring_eq
    (rows : Option (List Row)) :
    reportsDuring rows = (rows.map reportsOf).getD [] := by
  cases rows with
  | none => rw [reportsDuring]; rfl
  | some rows => rw [reportsDuring]; rfl

/- The reports of the moments of a call, if any. -/
theorem map_report_getD
    (moments : Option (List Moment)) :
    (moments.getD []).map Moment.report =
      (moments.map (·.map Moment.report)).getD [] := by
  cases moments <;> rfl

mutual

/- A step reports what is seen at its moments. -/
theorem Step.reports_run :
    ∀ (step : Step) (session : Session),
      (step.run session).2.reports =
        (step.moments session).map Moment.report
  | .mk operation duringExists duringRead, session => by
      have hExists :
          Session.Meanwhile.map reportsOf
              (runSteps duringExists) =
            (watching duringExists).map
              (·.map Moment.report) := by
        funext asking
        exact
          congrArg (Prod.mk _)
            (reportsOf_runSteps duringExists asking)
      have hRead :
          Session.Meanwhile.map reportsOf
              (runSteps duringRead) =
            (watching duringRead).map
              (·.map Moment.report) := by
        funext asked
        exact
          congrArg (Prod.mk _)
            (reportsOf_runSteps duringRead asked)
      have hSame :=
        session.perform_map reportsOf (runSteps duringExists)
          (runSteps duringRead) operation
      rw [hExists, hRead, Session.perform_map] at hSame
      simp only [Session.Performed.map,
        Session.Performed.mk.injEq] at hSame
      rcases hSame with
        ⟨hSession, hAnswer, hDuringExists, hDuringRead⟩
      rw [Step.run, Step.moments_mk]
      unfold Session.report Session.Performed.during
      dsimp only
      rw [Row.reports, reportsDuring_eq, reportsDuring_eq,
        List.map_append, List.map_append, map_report_getD,
        map_report_getD, hDuringExists, hDuringRead,
        ← hAnswer, ← hSession]
      rfl

/- A run reports what is seen at its moments. -/
theorem reportsOf_runSteps :
    ∀ (steps : List Step) (session : Session),
      reportsOf (runSteps steps session).2 =
        (momentsOf steps session).map Moment.report
  | [], session => by
      rw [runSteps, momentsOf, reportsOf]
      rfl
  | step :: steps, session => by
      rw [runSteps, momentsOf, reportsOf, List.map_append,
        Step.reports_run step session,
        reportsOf_runSteps steps _]

end

end DottedRef
