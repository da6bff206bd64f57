import DottedRef.Proofs.Session.Runs

/-
  This file lists the requests that a run starts, in the order
  in which they start, with the generation that each takes and
  what each is about. A reload comes before all that runs while
  it waits for the file system.

  Key definitions include:
    * `Cause`
    * `Cause.snapshot?`
    * `Started`
    * `Step.started`
    * `startedBy`
    * `Operation.startsRequest`
    * `Session.Counts`

  Key theorems include:
    * `Session.counts_runSteps`
    * `startedBy_eq_nil_iff`
-/

namespace DottedRef

------------------------------------------------------------
-- Requests
------------------------------------------------------------

/-
  What a request is about: a ticket that may be used later, a
  source, a file, or a deletion. A file that is there answers
  with its bytes or with the reason why they cannot be read.
-/
inductive Cause where
  | ticket
  | source (bytes : List UInt8)
  | file (answer? : Option (Except String (List UInt8)))
  | deletion

/-
  What a request leaves in the store. One for a ticket leaves
  nothing by itself.
-/
def Cause.snapshot?
    (name : String) : Cause → Option Snapshot
  | ticket => none
  | source bytes => some (.leftBy name bytes)
  | file (some (.ok bytes)) => some (.leftBy name bytes)
  | file (some (.error _)) => some .absent
  | file none => some .absent
  | deletion => some .absent

/- A request that has started. -/
structure Started where
  generation : UInt64
  cause : Cause

/- What the request is about that an action starts. -/
def Action.cause? : Action → Option Cause
  | storeReload source => some (.source source)
  | beginReload => some .ticket
  | storeDelete => some .deletion
  | _ => none

/- The request that an action starts in a store, if any. -/
def Action.started
    (store : Store)
    (action : Action) : List Started :=
  match action.cause? with
  | some cause => [⟨store.generation + 1, cause⟩]
  | none => []

namespace Session

/-
  What the file of a reload answers if it is there, given the
  session that it is read in.
-/
def found?
    (session asked : Session) :
    Option (Except String (List UInt8)) :=
  let path := session.engine.configPath
  if session.files.contains path then
    some (asked.files.read path)
  else
    none

/-
  The requests of a reload and of what runs during its calls.
-/
def startedByReload
    (session asked : Session)
    (duringExists duringRead : List Started) : List Started :=
  let isThere := session.files.contains session.engine.configPath
  ⟨session.engine.store.generation + 1,
      .file (session.found? asked)⟩ ::
    (duringExists ++ if isThere then duringRead else [])

/- The requests that an operation starts in a session. -/
def startedByOperation
    (session asked : Session)
    (duringExists duringRead : List Started)
    (operation : Operation) : List Started :=
  match operation.role session.engine with
  | .act action => action.started session.engine.store
  | .reload =>
      session.startedByReload asked duringExists duringRead
  | .drop _ =>
      [⟨session.engine.store.generation + 1, .deletion⟩]
  | .ignore => []

end Session

mutual

/- The requests that a step starts, at any depth. -/
def Step.started : Step → Session → List Started
  | .mk operation duringExists duringRead, session =>
      let asked := (runSteps duringExists session.asking).1
      session.startedByOperation asked
        (startedBy duringExists session.asking)
        (startedBy duringRead asked) operation

/- The requests that steps start, at any depth. -/
def startedBy : List Step → Session → List Started
  | [], _ => []
  | step :: steps, session =>
      step.started session ++ startedBy steps (step.run session).1

end

/- Whether an operation starts a request. -/
def Operation.startsRequest
    (configPath : String) : Operation → Bool
  | act action => action.startsRequest
  | startUp => true
  | reload => true
  | event _ path =>
      Location.normalizePath path =
        Location.normalizePath configPath

/- Whether a step starts a request by its own operation. -/
def Step.startsRequest
    (configPath : String) : Step → Bool
  | mk operation _ _ => operation.startsRequest configPath

------------------------------------------------------------
-- Whether Requests Start
------------------------------------------------------------

/- Exactly the actions that start a request have a cause. -/
theorem Action.isSome_cause?
    (action : Action) :
    action.cause?.isSome = action.startsRequest := by
  cases action <;> rfl

/- An action has a request unless it starts none. -/
theorem Action.started_eq_nil_iff
    {store : Store}
    {action : Action} :
    action.started store = [] ↔
      action.startsRequest = false := by
  unfold started
  rw [← isSome_cause?]
  cases action.cause? <;> simp

/- A step starts requests if its own operation starts one. -/
theorem Step.started_eq_nil_iff
    {step : Step}
    {session : Session} :
    step.started session = [] ↔
      step.startsRequest session.engine.configPath = false := by
  cases step with
  | mk operation duringExists duringRead =>
      rw [Step.started, Step.startsRequest]
      unfold Session.startedByOperation
      cases operation with
      | act action => exact Action.started_eq_nil_iff
      | startUp =>
          simp [Operation.role, Session.startedByReload,
            Operation.startsRequest]
      | reload =>
          simp [Operation.role, Session.startedByReload,
            Operation.startsRequest]
      | event kind path =>
          by_cases hWatched : session.engine.watches path = true
          · have hStarts :
                Operation.startsRequest
                    session.engine.configPath
                    (.event kind path) = true :=
              hWatched
            cases kind <;>
              simp [Operation.role, hWatched, hStarts,
                Session.startedByReload]
          · have hStarts :
                Operation.startsRequest
                    session.engine.configPath
                    (.event kind path) = false :=
              Bool.eq_false_iff.mpr hWatched
            simp [Operation.role, hWatched, hStarts]

/- Steps start requests if one of them does by its operation. -/
theorem startedBy_eq_nil_iff
    {steps : List Step}
    {session : Session} :
    startedBy steps session = [] ↔
      steps.any
          (·.startsRequest session.engine.configPath) =
        false := by
  induction steps generalizing session with
  | nil => simp [startedBy]
  | cons step steps ih =>
      have hSame := Session.sameSetting_runSteps [step] session
      have hPath :
          (step.run session).1.engine.configPath =
            session.engine.configPath :=
        hSame.configPath
      rw [startedBy, List.append_eq_nil_iff,
        Step.started_eq_nil_iff, ih, hPath, List.any_cons,
        Bool.or_eq_false_iff]

------------------------------------------------------------
-- Generations
------------------------------------------------------------

namespace Session

/-
  Requests count from one session to another if they took the
  generations in between, one after another.
-/
structure Counts
    (requests : List Started)
    (first last : Session) : Prop where
  generation :
    last.engine.store.generation =
      first.engine.store.generation +
        UInt64.ofNat requests.length
  numbered :
    requests.map (·.generation) =
      (List.range' 1 requests.length).map fun number =>
        first.engine.store.generation + UInt64.ofNat number

/- No requests count where the generation stays. -/
theorem Counts.of_eq
    {first last : Session}
    (h :
      last.engine.store.generation =
        first.engine.store.generation) :
    Counts [] first last := by
  refine ⟨?_, rfl⟩
  rw [h]
  exact (UInt64.add_zero _).symm

/- One request counts where it takes the next generation. -/
theorem Counts.of_next
    {first last : Session}
    (cause : Cause)
    (h :
      last.engine.store.generation =
        first.engine.store.generation + 1) :
    Counts [⟨first.engine.store.generation + 1, cause⟩]
      first last := by
  exact ⟨h, rfl⟩

/- Requests count on where others have stopped. -/
theorem Counts.append
    {earlier later : List Started}
    {first middle last : Session}
    (hFirst : Counts earlier first middle)
    (hLast : Counts later middle last) :
    Counts (earlier ++ later) first last := by
  constructor
  · rw [hLast.generation, hFirst.generation,
      List.length_append, UInt64.ofNat_add, UInt64.add_assoc]
  · have hShift :
        List.range' (1 + earlier.length) later.length =
          (List.range' 1 later.length).map
            (earlier.length + ·) := by
      rw [List.map_add_range', Nat.add_comm]
    rw [List.map_append, hFirst.numbered, hLast.numbered,
      List.length_append, ← List.range'_append_1,
      List.map_append, hShift, List.map_map]
    congr 1
    apply List.map_congr_left
    intro number _
    simp only [Function.comp_apply]
    rw [hFirst.generation, UInt64.ofNat_add, UInt64.add_assoc]

/- What takes no generation afterwards does not count. -/
theorem Counts.trans_eq
    {requests : List Started}
    {first middle last : Session}
    (h : Counts requests first middle)
    (hLast :
      last.engine.store.generation =
        middle.engine.store.generation) :
    Counts requests first last := by
  rw [← List.append_nil requests]
  exact h.append (Counts.of_eq hLast)

/- The last request to count holds the newest generation. -/
theorem Counts.generation_of_getLast?
    {requests : List Started}
    {request : Started}
    {first last : Session}
    (h : Counts requests first last)
    (hRequest : requests.getLast? = some request) :
    last.engine.store.generation = request.generation := by
  have hNonempty : requests.length ≠ 0 := by
    intro hNil
    rw [List.length_eq_zero_iff.mp hNil] at hRequest
    simp at hRequest
  have hLast := congrArg List.getLast? h.numbered
  rw [List.getLast?_map, hRequest, List.getLast?_map,
    List.getLast?_range', if_neg hNonempty,
    Nat.add_sub_cancel_left] at hLast
  rw [h.generation]
  exact (Option.some.inj hLast).symm

/-
  Unless generations run out, requests that count from the
  first one on are numbered by theirs.
-/
theorem Counts.toNat_generation
    {requests : List Started}
    {first last : Session}
    (h : Counts requests first last)
    (hFirst : first.engine.store.generation = 0)
    (hCount : requests.length < UInt64.size) :
    requests.map (·.generation.toNat) =
      List.range' 1 requests.length := by
  have hNumber :
      ∀ number ∈ List.range' 1 requests.length,
        (0 + UInt64.ofNat number).toNat = id number := by
    intro number hMem
    rw [List.mem_range'_1] at hMem
    rw [UInt64.zero_add]
    apply UInt64.toNat_ofNat_of_lt'
    omega
  have hMap := congrArg (List.map UInt64.toNat) h.numbered
  rw [List.map_map, List.map_map, hFirst] at hMap
  exact
    hMap.trans
      ((List.map_congr_left hNumber).trans (List.map_id _))

/- An action counts by the request that it starts. -/
theorem counts_act
    (session : Session)
    (action : Action) :
    Counts (action.started session.engine.store) session
      (session.act action).1 := by
  have hStarts := action.isSome_cause?
  unfold Action.started
  cases hCause : action.cause? with
  | none =>
      rw [hCause] at hStarts
      apply Counts.of_eq
      rw [(acts_act ..).store, ← hStarts]
      rfl
  | some cause =>
      rw [hCause] at hStarts
      apply Counts.of_next
      rw [(acts_act ..).store, ← hStarts]
      rfl

/- Finishing a reload takes no generation. -/
theorem finish_generation
    (session : Session)
    (ticket : Ticket)
    (finding : Engine.Finding) :
    (session.finish ticket finding).1.engine.store.generation =
      session.engine.store.generation := by
  rw [finish_store]
  split <;> rfl

/- A reload finishes with what it finds. -/
theorem reload_eq_finish
    (session : Session)
    (meanwhileExists meanwhileRead : Meanwhile ρ) :
    let path := session.engine.configPath
    let isThere := session.files.contains path
    let asked := (meanwhileExists session.asking).1
    let reload :=
      session.reload meanwhileExists meanwhileRead
    let finished :=
      (session.finishing isThere meanwhileExists
        meanwhileRead).finish session.engine.startReload.2
        (finding isThere (asked.files.read path))
    reload.session = finished.1 ∧
      reload.outcome = finished.2 :=
  reloadWith_eq_finish ..

section Reloads

variable {session : Session}
variable {meanwhileExists meanwhileRead : Meanwhile ρ}
variable {duringExists duringRead : List Started}

/- What runs during the calls of a reload counts on. -/
theorem counts_finishing
    (isThere : Bool)
    (hExists :
      Counts duringExists session.asking
        (meanwhileExists session.asking).1)
    (hRead :
      Counts duringRead (meanwhileExists session.asking).1
        (meanwhileRead (meanwhileExists session.asking).1).1) :
    Counts (duringExists ++ if isThere then duringRead else [])
      session.asking
      (session.finishing isThere meanwhileExists
        meanwhileRead) := by
  cases isThere with
  | true => exact hExists.append hRead
  | false =>
      simp only [Bool.false_eq_true, if_false, List.append_nil]
      exact hExists

/- A reload counts before what runs during its calls. -/
theorem counts_reload
    (hExists :
      Counts duringExists session.asking
        (meanwhileExists session.asking).1)
    (hRead :
      Counts duringRead (meanwhileExists session.asking).1
        (meanwhileRead (meanwhileExists session.asking).1).1) :
    Counts
      (session.startedByReload
        (meanwhileExists session.asking).1 duringExists
        duringRead)
      session
      (session.reload meanwhileExists
        meanwhileRead).session := by
  rw [(reload_eq_finish ..).1]
  refine Counts.trans_eq ?_ (finish_generation ..)
  exact
    (Counts.of_next (.file (session.found? _)) rfl).append
      (counts_finishing _ hExists hRead)

end Reloads

/- An operation counts by the requests that it starts. -/
theorem counts_perform
    {session : Session}
    {meanwhileExists meanwhileRead : Meanwhile ρ}
    {duringExists duringRead : List Started}
    (operation : Operation)
    (hExists :
      Counts duringExists session.asking
        (meanwhileExists session.asking).1)
    (hRead :
      Counts duringRead (meanwhileExists session.asking).1
        (meanwhileRead (meanwhileExists session.asking).1).1) :
    Counts
      (session.startedByOperation
        (meanwhileExists session.asking).1 duringExists
        duringRead operation)
      session
      (session.perform operation meanwhileExists
        meanwhileRead).session := by
  have hRole :=
    session.perform_role operation meanwhileExists
      meanwhileRead
  unfold Session.startedByOperation
  cases hCase : operation.role session.engine with
  | act action =>
      simp only [hCase] at hRole
      rw [hRole]
      exact counts_act session action
  | reload =>
      simp only [hCase] at hRole
      rcases hRole with ⟨entries, hSession⟩
      rw [hSession]
      exact (counts_reload hExists hRead).trans_eq rfl
  | drop path =>
      simp only [hCase] at hRole
      rw [hRole]
      apply Counts.of_next
      simp [withEngine, Engine.dropConfig, Store.delete,
        Store.advance]
  | ignore =>
      simp only [hCase] at hRole
      rcases hRole with ⟨entries, hSession⟩
      rw [hSession]
      exact Counts.of_eq rfl

mutual

/- A step counts by the requests that it starts. -/
theorem counts_run :
    ∀ (step : Step) (session : Session),
      Counts (step.started session) session
        (step.run session).1
  | .mk operation duringExists duringRead, session => by
      rw [Step.started, Step.run]
      have hPerform :=
        counts_perform operation
          (counts_runSteps duringExists session.asking)
          (counts_runSteps duringRead _)
      exact hPerform.trans_eq rfl

/- A run counts by the requests that it starts. -/
theorem counts_runSteps :
    ∀ (steps : List Step) (session : Session),
      Counts (startedBy steps session) session
        (runSteps steps session).1
  | [], session => by
      rw [startedBy, runSteps]
      exact Counts.of_eq rfl
  | step :: steps, session => by
      rw [startedBy, runSteps]
      exact
        (counts_run step session).append
          (counts_runSteps steps _)

end

end Session

end DottedRef
