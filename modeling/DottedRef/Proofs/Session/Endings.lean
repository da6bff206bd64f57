import DottedRef.Proofs.Session.Runs

/-
  This file lists the operations that end during a run, in the
  order in which they end, with how each ends and the session
  that it leaves. A reload comes after all that runs while it
  waits for the file system.

  Key definitions include:
    * `Ending`
    * `Ended`
    * `Step.ended`
    * `endedBy`

  Key theorems include:
    * `StepClosed.endedBy`
-/

namespace DottedRef

------------------------------------------------------------
-- Endings
------------------------------------------------------------

/-
  How an operation ends: as a reload with its outcome, as a
  deletion of the configuration file, or as something else.
-/
inductive Ending where
  | reloaded (outcome : Except LoadError Store.Commit)
  | dropped
  | other

namespace Ending

/- Whether a reload ends without being superseded. -/
def isReload : Ending → Bool
  | reloaded (.ok .superseded) => false
  | reloaded _ => true
  | _ => false

/- A reload that is not superseded ends as one. -/
theorem isReload_of_ne
    {outcome : Except LoadError Store.Commit}
    (h : outcome ≠ .ok .superseded) :
    isReload (.reloaded outcome) = true := by
  cases outcome with
  | error error => rfl
  | ok commit =>
      cases commit with
      | applied document => rfl
      | superseded => exact absurd rfl h

/- Whether the configuration file was deleted. -/
def isDrop : Ending → Bool
  | dropped => true
  | _ => false

end Ending

/- An operation that has ended, with the session it leaves. -/
structure Ended where
  ending : Ending
  session : Session

namespace Session

/- How an operation ends in a session. -/
def ending
    (session : Session)
    (operation : Operation)
    (meanwhileExists meanwhileRead : Meanwhile ρ) : Ending :=
  match operation.role session.engine with
  | .reload =>
      .reloaded
        (session.reload meanwhileExists meanwhileRead).outcome
  | .drop _ => .dropped
  | _ => .other

/- The operations that end during the calls of another. -/
def endedDuring
    (session : Session)
    (duringExists duringRead : List Ended)
    (operation : Operation) : List Ended :=
  let isThere := session.files.contains session.engine.configPath
  match operation.role session.engine with
  | .reload => duringExists ++ if isThere then duringRead else []
  | _ => []

end Session

mutual

/- The operations that end in a step, at any depth. -/
def Step.ended : Step → Session → List Ended
  | .mk operation duringExists duringRead, session =>
      let asked := (runSteps duringExists session.asking).1
      session.endedDuring
          (endedBy duringExists session.asking)
          (endedBy duringRead asked) operation ++
        [⟨session.ending operation (runSteps duringExists)
            (runSteps duringRead),
          ((Step.mk operation duringExists duringRead).run
            session).1⟩]

/- The operations that end in steps, at any depth. -/
def endedBy : List Step → Session → List Ended
  | [], _ => []
  | step :: steps, session =>
      step.ended session ++ endedBy steps (step.run session).1

end

------------------------------------------------------------
-- Closed Relations
------------------------------------------------------------

namespace StepClosed

variable {p : Operation → Bool}
variable {R : Session → Session → Prop}

/-
  A closed relation holds up to wherever an operation ends
  during the calls of another.
-/
theorem endedDuring
    (h : StepClosed p R)
    {session asked : Session}
    {duringExists duringRead : List Ended}
    {operation : Operation}
    {ended : Ended}
    (hAsked : R session.asking asked)
    (hExists :
      ∀ ended ∈ duringExists, R session.asking ended.session)
    (hRead : ∀ ended ∈ duringRead, R asked ended.session)
    (hMem :
      ended ∈
        session.endedDuring duringExists duringRead operation) :
    R session ended.session := by
  have hAsking := h.asking session
  unfold Session.endedDuring at hMem
  split at hMem
  · rcases List.mem_append.mp hMem with hMem | hMem
    · exact h.trans hAsking (hExists ended hMem)
    · split at hMem
      · exact
          h.trans hAsking
            (h.trans hAsked (hRead ended hMem))
      · simp at hMem
  · simp at hMem

mutual

/- A closed relation holds up to wherever a step's end. -/
theorem ended
    (h : StepClosed p R) :
    ∀ (step : Step) (session : Session), step.all p →
      ∀ ended ∈ step.ended session, R session ended.session
  | .mk operation duringExists duringRead, session, hAll => by
      intro ended hMem
      rw [Step.ended] at hMem
      have hParts := hAll
      simp only [Step.all, Bool.and_eq_true] at hParts
      rcases hParts with ⟨⟨-, hExists⟩, hRead⟩
      rcases List.mem_append.mp hMem with hMem | hMem
      · exact
          h.endedDuring
            (h.runSteps duringExists session.asking hExists)
            (endedBy h duringExists session.asking hExists)
            (endedBy h duringRead _ hRead) hMem
      · rw [List.mem_singleton.mp hMem]
        exact h.run _ session hAll

/- A closed relation holds up to wherever a run's end. -/
theorem endedBy
    (h : StepClosed p R) :
    ∀ (steps : List Step) (session : Session),
      allSteps p steps →
        ∀ ended ∈ DottedRef.endedBy steps session,
          R session ended.session
  | [], session, _ => by
      intro ended hMem
      rw [DottedRef.endedBy] at hMem
      simp at hMem
  | step :: steps, session, hAll => by
      intro ended hMem
      simp only [allSteps, Bool.and_eq_true] at hAll
      rw [DottedRef.endedBy] at hMem
      rcases List.mem_append.mp hMem with hMem | hMem
      · exact StepClosed.ended h step session hAll.1 ended hMem
      · exact
          h.trans (h.run step session hAll.1)
            (endedBy h steps _ hAll.2 ended hMem)

end

end StepClosed

end DottedRef
