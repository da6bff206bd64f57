import DottedRef.Proofs.Session.Superseding

/-
  This file proves that over every run the request that has
  started last decides what the store holds, whatever order
  requests finish in.

  The induction is over the tree of steps. It carries along
  what the last request of each part of the run leaves, which
  a reload takes over from the steps that run during its
  calls unless there is no request among them.

  Key definitions include:
    * `Session.Settles`

  Key theorems include:
    * `Session.settles_runSteps`
    * `Session.last_started_wins`
-/

namespace DottedRef

namespace Session

------------------------------------------------------------
-- Settling
------------------------------------------------------------

/-
  Requests settle a session if none of them is for a ticket
  and the last of them has left what the session holds.
-/
structure Settles
    (requests : List Started)
    (first last : Session) : Prop where
  definite :
    ∀ request ∈ requests,
      (request.cause.snapshot?
        first.engine.store.name).isSome
  snapshot :
    last.engine.store.snapshot =
      (requests.getLast?.bind fun request =>
        request.cause.snapshot?
          first.engine.store.name).getD
        first.engine.store.snapshot

/- Without requests the snapshot stays. -/
theorem Settles.of_eq
    {first last : Session}
    (h :
      last.engine.store.snapshot =
        first.engine.store.snapshot) :
    Settles [] first last := by
  refine ⟨?_, h⟩
  intro request hMem
  simp at hMem

/- A request settles a session that holds what it leaves. -/
theorem Settles.of_last
    {earlier : List Started}
    {request : Started}
    {snapshot : Snapshot}
    {first last : Session}
    (hEarlier :
      ∀ request ∈ earlier,
        (request.cause.snapshot?
          first.engine.store.name).isSome)
    (hRequest :
      request.cause.snapshot? first.engine.store.name =
        some snapshot)
    (h : last.engine.store.snapshot = snapshot) :
    Settles (earlier ++ [request]) first last := by
  constructor
  · intro other hMem
    rcases List.mem_append.mp hMem with hMem | hMem
    · exact hEarlier other hMem
    · rw [List.mem_singleton.mp hMem, hRequest]
      rfl
  · rw [List.getLast?_concat, Option.bind_some, hRequest]
    exact h

/- One request settles a session that holds what it leaves. -/
theorem Settles.of_single
    {request : Started}
    {snapshot : Snapshot}
    {first last : Session}
    (hRequest :
      request.cause.snapshot? first.engine.store.name =
        some snapshot)
    (h : last.engine.store.snapshot = snapshot) :
    Settles [request] first last := by
  rw [← List.nil_append [request]]
  apply Settles.of_last ?_ hRequest h
  intro other hMem
  simp at hMem

/- Later requests settle a session whatever came before. -/
theorem Settles.overtake
    {earlier later : List Started}
    {first middle last : Session}
    (hEarlier :
      ∀ request ∈ earlier,
        (request.cause.snapshot?
          first.engine.store.name).isSome)
    (hLast : Settles later middle last)
    (hNonempty : later ≠ [])
    (hName :
      middle.engine.store.name = first.engine.store.name) :
    Settles (earlier ++ later) first last := by
  rcases List.eq_nil_or_concat later with
    hNil | ⟨before, request, hLater⟩
  · exact absurd hNil hNonempty
  · rw [List.concat_eq_append] at hLater
    subst hLater
    have hDefinite := hLast.definite
    have hSnapshot := hLast.snapshot
    rw [hName] at hDefinite hSnapshot
    rw [List.getLast?_concat, Option.bind_some] at hSnapshot
    rcases Option.isSome_iff_exists.mp
        (hDefinite request (by simp)) with
      ⟨snapshot, hRequest⟩
    rw [hRequest, Option.getD_some] at hSnapshot
    rw [← List.append_assoc]
    apply Settles.of_last ?_ hRequest hSnapshot
    intro other hMem
    rcases List.mem_append.mp hMem with hMem | hMem
    · exact hEarlier other hMem
    · exact hDefinite other (List.mem_append_left _ hMem)

/- Requests settle on from where others have settled. -/
theorem Settles.append
    {earlier later : List Started}
    {first middle last : Session}
    (hFirst : Settles earlier first middle)
    (hLast : Settles later middle last)
    (hName :
      middle.engine.store.name = first.engine.store.name) :
    Settles (earlier ++ later) first last := by
  by_cases hNil : later = []
  · subst hNil
    rw [List.append_nil]
    exact
      ⟨hFirst.definite,
        hLast.snapshot.trans hFirst.snapshot⟩
  · exact hLast.overtake hFirst.definite hNil hName

/- Logging and reporting afterwards unsettle nothing. -/
theorem Settles.trans_eq
    {requests : List Started}
    {first middle last : Session}
    (h : Settles requests first middle)
    (hLast :
      last.engine.store.snapshot =
        middle.engine.store.snapshot) :
    Settles requests first last :=
  ⟨h.definite, hLast.trans h.snapshot⟩

/- A settled session holds what the last request leaves. -/
theorem Settles.snapshot?_of_getLast?
    {requests : List Started}
    {request : Started}
    {first last : Session}
    (h : Settles requests first last)
    (hRequest : requests.getLast? = some request) :
    request.cause.snapshot? first.engine.store.name =
      some last.engine.store.snapshot := by
  have hDefinite :=
    h.definite request (List.mem_of_getLast? hRequest)
  rcases Option.isSome_iff_exists.mp hDefinite with
    ⟨snapshot, hSnapshot⟩
  rw [h.snapshot, hRequest, Option.bind_some, hSnapshot]
  rfl

------------------------------------------------------------
-- Actions
------------------------------------------------------------

/-
  Without tickets, an action leaves what its request is about.
-/
theorem leaves?_of_no_tickets
    {session : Session}
    {action : Action}
    (hTickets : session.tickets = []) :
    session.leaves? action =
      action.cause?.bind
        (·.snapshot? session.engine.store.name) := by
  cases action <;>
    simp [leaves?, honours, hTickets, Action.cause?,
      Cause.snapshot?]

/- Only a request for a ticket leaves nothing by itself. -/
theorem exists_snapshot?_of_cause?
    {action : Action}
    {cause : Cause}
    (name : String)
    (hAction : action.givesTicket = false)
    (hCause : action.cause? = some cause) :
    ∃ snapshot, cause.snapshot? name = some snapshot := by
  cases action with
  | storeReload source =>
      rw [← Option.some.inj hCause]
      exact ⟨_, rfl⟩
  | storeDelete =>
      rw [← Option.some.inj hCause]
      exact ⟨_, rfl⟩
  | beginReload => simp [Action.givesTicket] at hAction
  | _ => simp [Action.cause?] at hCause

/- An action that gives out no ticket settles its session. -/
theorem settles_act
    {session : Session}
    {action : Action}
    (hTickets : session.tickets = [])
    (hAction : action.givesTicket = false) :
    Settles (action.started session.engine.store) session
      (session.act action).1 := by
  have hLeaves :
      session.leaves? action =
        action.cause?.bind
          (·.snapshot? session.engine.store.name) :=
    leaves?_of_no_tickets hTickets
  unfold Action.started
  cases hCause : action.cause? with
  | none =>
      apply Settles.of_eq
      rw [(acts_act ..).store, hLeaves, hCause]
      rfl
  | some cause =>
      rcases
        exists_snapshot?_of_cause? session.engine.store.name
          hAction hCause with
        ⟨snapshot, hSnapshot⟩
      apply Settles.of_single hSnapshot
      rw [(acts_act ..).store, hLeaves, hCause, Option.bind_some,
        hSnapshot]
      rfl

------------------------------------------------------------
-- Runs
------------------------------------------------------------

/- What runs during the calls of a reload settles it. -/
theorem settles_finishing
    {session : Session}
    {isThere : Bool}
    {duringExists duringRead : List Step}
    (hCount :
      (session.interference isThere duringExists
        duringRead).length < UInt64.size)
    (hExists :
      (startedBy duringExists session.asking).length <
          UInt64.size →
        Settles (startedBy duringExists session.asking)
          session.asking
          (runSteps duringExists session.asking).1)
    (hRead :
      let asked := (runSteps duringExists session.asking).1
      (startedBy duringRead asked).length < UInt64.size →
        Settles (startedBy duringRead asked) asked
          (runSteps duringRead asked).1) :
    Settles
      (session.interference isThere duringExists duringRead)
      session.asking
      (session.finishing isThere (runSteps duringExists)
        (runSteps duringRead)) := by
  unfold interference at hCount ⊢
  rw [List.length_append] at hCount
  have hFirst := hExists (by omega)
  cases isThere with
  | false =>
      simp only [Bool.false_eq_true, if_false, List.append_nil]
      exact hFirst
  | true =>
      simp only [if_true] at hCount ⊢
      exact
        hFirst.append (hRead (by omega))
          (sameSetting_runSteps duringExists _).name

/- What a reload leaves goes by what its file answers. -/
theorem snapshot?_found?
    (name : String)
    (session asked : Session) :
    (Cause.file (session.found? asked)).snapshot? name =
      some
        ((finding
          (session.files.contains session.engine.configPath)
          (asked.files.read
            session.engine.configPath)).snapshot name) := by
  unfold found? finding
  dsimp only
  cases session.files.contains session.engine.configPath with
  | false => rfl
  | true =>
      cases asked.files.read session.engine.configPath <;> rfl

/-
  A reload is settled by what its file answers, or by the
  requests that have started during its calls.
-/
theorem settles_reload
    {session : Session}
    {duringExists duringRead : List Step}
    (hDuring :
      let isThere :=
        session.files.contains session.engine.configPath
      Settles
        (session.interference isThere duringExists duringRead)
        session.asking
        (session.finishing isThere (runSteps duringExists)
          (runSteps duringRead)))
    (hCount :
      (session.interference
        (session.files.contains session.engine.configPath)
        duringExists duringRead).length < UInt64.size) :
    let asked := (runSteps duringExists session.asking).1
    Settles
      (session.startedByReload asked
        (startedBy duringExists session.asking)
        (startedBy duringRead asked))
      session
      (session.reload (runSteps duringExists)
        (runSteps duringRead)).session := by
  intro asked
  have hOwn :=
    snapshot?_found? session.engine.store.name session asked
  rw [startedByReload_eq]
  unfold reload
  by_cases hNil :
      session.interference
          (session.files.contains session.engine.configPath)
          duringExists duringRead = []
  · rw [hNil, List.append_nil]
    apply Settles.of_single hOwn
    rw [(reloadWith_of_in_time _ hNil).2.1]
    exact Engine.Finding.snapshot_verdict ..
  · have hEarlier :
        ∀ request ∈
          [(⟨session.engine.store.generation + 1,
            .file (session.found? asked)⟩ : Started)],
          (request.cause.snapshot?
            session.engine.store.name).isSome := by
      intro request hMem
      rw [List.mem_singleton.mp hMem, hOwn]
      rfl
    apply (Settles.overtake hEarlier hDuring hNil rfl).trans_eq
    rw [(reloadWith_of_overtaken hNil hCount).2.1]

/- An operation is settled by the requests that it starts. -/
theorem settles_perform
    {session : Session}
    {operation : Operation}
    {duringExists duringRead : List Step}
    (hTickets : session.tickets = [])
    (hOperation : operation.givesTicket = false)
    (hExists :
      (startedBy duringExists session.asking).length <
          UInt64.size →
        Settles (startedBy duringExists session.asking)
          session.asking
          (runSteps duringExists session.asking).1)
    (hRead :
      let asked := (runSteps duringExists session.asking).1
      (startedBy duringRead asked).length < UInt64.size →
        Settles (startedBy duringRead asked) asked
          (runSteps duringRead asked).1)
    (hCount :
      ((Step.mk operation duringExists duringRead).started
        session).length < UInt64.size) :
    Settles
      ((Step.mk operation duringExists duringRead).started
        session)
      session
      (session.perform operation (runSteps duringExists)
        (runSteps duringRead)).session := by
  have hRole :=
    session.perform_role operation (runSteps duringExists)
      (runSteps duringRead)
  rw [Step.started] at hCount ⊢
  unfold startedByOperation at hCount ⊢
  cases hCase : operation.role session.engine with
  | act action =>
      simp only [hCase] at hRole
      rw [hRole]
      apply settles_act hTickets
      rw [Operation.eq_act_of_role hCase] at hOperation
      exact hOperation
  | reload =>
      simp only [hCase] at hRole hCount
      rcases hRole with ⟨entries, hSession⟩
      rw [hSession]
      have hDuring :
          (session.interference
            (session.files.contains session.engine.configPath)
            duringExists duringRead).length < UInt64.size :=
        Nat.lt_of_succ_lt hCount
      exact
        (settles_reload
          (settles_finishing hDuring hExists hRead)
          hDuring).trans_eq rfl
  | drop path =>
      simp only [hCase] at hRole
      rw [hRole]
      apply Settles.of_single rfl
      simp [withEngine, Engine.dropConfig, Store.delete]
  | ignore =>
      simp only [hCase] at hRole
      rcases hRole with ⟨entries, hSession⟩
      rw [hSession]
      exact Settles.of_eq rfl

mutual

/- A step is settled by the requests that it starts. -/
theorem settles_run :
    ∀ (step : Step) (session : Session),
      session.tickets = [] →
        step.all (fun operation => !operation.givesTicket) →
          (step.started session).length < UInt64.size →
            Settles (step.started session) session
              (step.run session).1
  | .mk operation duringExists duringRead, session,
      hTickets, hAll, hCount => by
      simp only [Step.all, Bool.and_eq_true] at hAll
      rcases hAll with ⟨⟨hOperation, hExists⟩, hRead⟩
      have hAsked :
          (runSteps duringExists session.asking).1.tickets =
            [] :=
        (tickets_runSteps hExists session.asking).trans
          hTickets
      have hPerform :=
        settles_perform hTickets (by simpa using hOperation)
          (settles_runSteps duringExists session.asking
            hTickets hExists)
          (settles_runSteps duringRead _ hAsked hRead) hCount
      rw [Step.run]
      exact hPerform.trans_eq rfl

/- A run is settled by the requests that it starts. -/
theorem settles_runSteps :
    ∀ (steps : List Step) (session : Session),
      session.tickets = [] →
        allSteps (fun operation => !operation.givesTicket)
            steps →
          (startedBy steps session).length < UInt64.size →
            Settles (startedBy steps session) session
              (runSteps steps session).1
  | [], session, _, _, _ => by
      rw [startedBy, runSteps]
      exact Settles.of_eq rfl
  | step :: steps, session, hTickets, hAll, hCount => by
      simp only [allSteps, Bool.and_eq_true] at hAll
      rw [startedBy, List.length_append] at hCount
      have hSame :=
        sameSetting_closed.run step session step.all_true
      have hRan : (step.run session).1.tickets = [] :=
        (tickets_closed.run step session hAll.1).trans hTickets
      rw [startedBy, runSteps]
      exact
        (settles_run step session hTickets hAll.1
          (by omega)).append
          (settles_runSteps steps _ hRan hAll.2 (by omega))
          hSame.name

end

------------------------------------------------------------
-- The Last Request
------------------------------------------------------------

/-
  The requests of a run take the generations one after
  another, and once the run is over the store holds what the
  last of them leaves. A reload during whose calls another
  request starts leaves the store as that request and what
  else ran then left it, whatever it reads.
-/
theorem last_started_wins
    (path : String)
    (channel : Channel)
    (files : FileSystem)
    (logLimit : Option LogLevel)
    (steps : List Step)
    (hSteps :
      allSteps (fun operation => !operation.givesTicket) steps)
    (hCount :
      (startedBy steps
        (Session.new (.new path channel) files
          logLimit)).length < UInt64.size) :
    let session :=
      Session.new (.new path channel) files logLimit
    let requests := startedBy steps session
    let last := (runSteps steps session).1.engine.store
    requests.map (·.generation.toNat) =
        List.range' 1 requests.length ∧
      (match requests.getLast? with
        | none => last.snapshot = .absent
        | some request =>
            last.generation = request.generation ∧
              request.cause.snapshot? path =
                some last.snapshot) ∧
      ∀ (older : Session) (isThere : Bool)
        (reading : Session → Except String (List UInt8))
        (duringExists duringRead : List Step),
        let newer :=
          older.interference isThere duringExists duringRead
        newer ≠ [] → newer.length < UInt64.size →
          (older.reloadWith isThere reading
              (runSteps duringExists)
              (runSteps duringRead)).session.engine.store =
            (older.finishing isThere (runSteps duringExists)
              (runSteps duringRead)).engine.store := by
  intro session requests last
  have hCounts :
      Counts requests session (runSteps steps session).1 :=
    counts_runSteps steps session
  have hSettles :
      Settles requests session (runSteps steps session).1 :=
    settles_runSteps steps session rfl hSteps hCount
  refine ⟨hCounts.toNat_generation rfl hCount, ?_, ?_⟩
  · cases hLast : requests.getLast? with
    | none =>
        have hSnapshot := hSettles.snapshot
        rw [hLast] at hSnapshot
        exact hSnapshot
    | some request =>
        exact
          ⟨hCounts.generation_of_getLast? hLast,
            hSettles.snapshot?_of_getLast? hLast⟩
  · intro older isThere reading duringExists duringRead newer
      hNonempty hNewer
    exact (reloadWith_of_overtaken hNonempty hNewer).2.1

/-
  A deletion during the first call of a reload starts last,
  and what the reload goes on to read is not loaded. A reload
  during the second call starts last as well. What it reads
  decides, although the outer reload has read a document and
  finishes last.
-/
theorem last_started_wins_of_nested :
    let files :=
      FileSystem.exact [("a.json", .readable [0x5b, 0x5d])]
    let session :=
      Session.new (.new "a.json" .host) files none
    let deletion := Step.mk (.act .storeDelete) [] []
    let overtaken := [Step.mk .reload [deletion] []]
    let nested := fun contents =>
      let change :=
        Step.mk (.act (.setFile "a.json" contents)) [] []
      [Step.mk .reload [] [change, Step.mk .reload [] []]]
    let loading := nested (.readable [0x7b, 0x7d])
    let rejecting := nested (.readable [])
    let failing := nested (.failing "denied")
    let left := fun steps =>
      (runSteps steps session).1.engine.store.snapshot
    (∀ steps ∈ [overtaken, loading, rejecting, failing],
      allSteps (fun operation => !operation.givesTicket)
          steps ∧
        (startedBy steps session).length < UInt64.size ∧
        (startedBy steps session).map
            (·.generation.toNat) = [1, 2]) ∧
      left overtaken = .absent ∧
      left loading = .loaded ⟨.object []⟩ ∧
      left rejecting = .malformed ∧
      left failing = .absent := by
  intro files session deletion overtaken nested loading
    rejecting failing left
  have hRuns :
      ∀ steps ∈ [overtaken, loading, rejecting, failing],
        allSteps (fun operation => !operation.givesTicket)
            steps ∧
          (startedBy steps session).length < UInt64.size ∧
          (startedBy steps session).length = 2 := by
    decide
  have hEach :
      ∀ steps ∈ [overtaken, loading, rejecting, failing],
        (startedBy steps session).map
            (·.generation.toNat) = [1, 2] ∧
          ∀ request,
            (startedBy steps session).getLast? =
                some request →
              request.cause.snapshot? "a.json" =
                some (left steps) := by
    intro steps hMem
    rcases hRuns steps hMem with ⟨hSteps, hCount, hTwo⟩
    rcases
      last_started_wins "a.json" .host files none steps hSteps
        hCount with
      ⟨hNumbered, hLast, -⟩
    rw [hTwo] at hNumbered
    refine ⟨hNumbered, ?_⟩
    intro request hRequest
    simp only [session] at hRequest
    rw [hRequest] at hLast
    exact hLast.2
  have hLoads :
      Snapshot.leftBy "a.json" [0x7b, 0x7d] =
        .loaded ⟨.object []⟩ := by
    rw [Snapshot.leftBy, Document.parse_emptyObject]
  have hFails : Snapshot.leftBy "a.json" [] = .malformed := by
    rw [Snapshot.leftBy, Document.parse_nil]
  have hLoading :=
    (hEach loading (by simp)).2
      ⟨2, .file (some (.ok [0x7b, 0x7d]))⟩ rfl
  have hRejecting :=
    (hEach rejecting (by simp)).2
      ⟨2, .file (some (.ok []))⟩ rfl
  have hFailing :=
    (hEach failing (by simp)).2
      ⟨2, .file (some (.error "denied"))⟩ rfl
  have hOvertaken :=
    (hEach overtaken (by simp)).2 ⟨2, .deletion⟩ rfl
  refine
    ⟨?_, (Option.some.inj hOvertaken).symm,
      (Option.some.inj hLoading).symm.trans hLoads,
      (Option.some.inj hRejecting).symm.trans hFails,
      (Option.some.inj hFailing).symm⟩
  intro steps hMem
  rcases hRuns steps hMem with ⟨hSteps, hCount, -⟩
  exact ⟨hSteps, hCount, (hEach steps hMem).1⟩

end Session

end DottedRef
