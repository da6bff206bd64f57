import DottedRef.Proofs.Store.Actions

/-
  This file proves the ticket protocol of the store over
  whole runs: a ticket counts as long as no request has come
  after it, and the store holds what the last action left that
  took effect.

  What a run should do is read off the list of actions alone.
  An invariant ties the generation of the store and the
  tickets of the session to that list.

  Key definitions include:
    * `Session.actAll`
    * `requestCount`
    * `sinceTicket?`
    * `isNewest`
    * `Action.effect?`
    * `lastEffect?`
    * `Session.Tracks`
    * `Session.Accepts`
    * `Session.Refuses`
    * `Session.Shows`

  Key theorems include:
    * `Session.Tracks.act`
    * `Session.Tracks.actAll`
    * `Session.ticket_protocol`
-/

namespace DottedRef

------------------------------------------------------------
-- Runs and Histories
------------------------------------------------------------

/- Do actions one after another. -/
def Session.actAll : List Action → Session → Session
  | [], session => session
  | action :: actions, session =>
      actAll actions (session.act action).1

/- The number of requests that a history starts. -/
def requestCount
    (history : List Action) : Nat :=
  history.countP (·.startsRequest)

/-
  What a history does after it gives out the ticket with an
  index, counting from 0, if it gives out that many.
-/
def sinceTicket?
    (index : Nat) : List Action → Option (List Action)
  | [] => none
  | action :: history =>
      if action.givesTicket then
        if index = 0 then
          some history
        else
          sinceTicket? (index - 1) history
      else
        sinceTicket? index history

/- Whether no request has come after a ticket. -/
def isNewest
    (index : Nat)
    (history : List Action) : Bool :=
  (sinceTicket? index history).any
    fun since => !since.any (·.startsRequest)

/-
  What an action leaves in a store after a history, if it
  takes effect there.
-/
def Action.effect?
    (name : String)
    (history : List Action) : Action → Option Snapshot
  | storeReload source => some (.leftBy name source)
  | storeDelete => some .absent
  | commit index source =>
      if isNewest index history then
        some (.leftBy name source)
      else
        none
  | commitAbsent index =>
      if isNewest index history then some .absent else none
  | _ => none

/-
  What is left by the last action that takes effect, where
  some actions have come before.
-/
def lastEffect?
    (name : String)
    (before : List Action) : List Action → Option Snapshot
  | [] => none
  | action :: history =>
      (lastEffect? name (before ++ [action]) history).or
        (action.effect? name before)

/-
  The generations that tickets are given out for, if some
  requests have come before.
-/
def issued
    (count : Nat) : List Action → List Nat
  | [] => []
  | action :: history =>
      if action.givesTicket then
        (count + 1) :: issued (count + 1) history
      else if action.startsRequest then
        issued (count + 1) history
      else
        issued count history

------------------------------------------------------------
-- Histories
------------------------------------------------------------

@[simp] theorem requestCount_nil :
    requestCount [] = 0 := by
  rfl

@[simp] theorem requestCount_append
    (first last : List Action) :
    requestCount (first ++ last) =
      requestCount first + requestCount last := by
  exact List.countP_append

theorem requestCount_cons
    (action : Action)
    (history : List Action) :
    requestCount (action :: history) =
      requestCount history +
        if action.startsRequest then 1 else 0 := by
  exact List.countP_cons

theorem requestCount_eq_zero_iff
    {history : List Action} :
    requestCount history = 0 ↔
      history.any (·.startsRequest) = false := by
  simp [requestCount]

/- The last effect of a longer history is its last action's. -/
theorem lastEffect?_concat
    (name : String)
    (before history : List Action)
    (action : Action) :
    lastEffect? name before (history ++ [action]) =
      (action.effect? name (before ++ history)).or
        (lastEffect? name before history) := by
  induction history generalizing before with
  | nil => simp [lastEffect?]
  | cons first history ih =>
      rw [List.cons_append, lastEffect?, ih, lastEffect?,
        List.append_assoc, Option.or_assoc]
      rfl

/- A longer history gives out its last action's ticket last. -/
theorem issued_concat
    (count : Nat)
    (history : List Action)
    (action : Action) :
    issued count (history ++ [action]) =
      issued count history ++
        if action.givesTicket then
          [count + requestCount history + 1]
        else
          [] := by
  induction history generalizing count with
  | nil =>
      simp only [List.nil_append, issued, requestCount_nil]
      split
      · rfl
      · split <;> rfl
  | cons first history ih =>
      have hSum :
          count + 1 + requestCount history =
            count + (requestCount history + 1) := by
        omega
      rw [List.cons_append, issued, issued,
        requestCount_cons]
      by_cases hGives : first.givesTicket = true
      · have hStarts :=
          Action.startsRequest_of_givesTicket hGives
        rw [if_pos hGives, if_pos hGives, ih, if_pos hStarts,
          hSum, List.cons_append]
      · rw [if_neg hGives, if_neg hGives]
        by_cases hStarts : first.startsRequest = true
        · rw [if_pos hStarts, if_pos hStarts, ih,
            if_pos hStarts]
          congr 3
          omega
        · rw [if_neg hStarts, if_neg hStarts, ih,
            if_neg hStarts]
          rfl

/- What comes after a ticket is part of the history. -/
theorem requestCount_sinceTicket?
    {index : Nat}
    {history since : List Action}
    (h : sinceTicket? index history = some since) :
    requestCount since < requestCount history := by
  induction history generalizing index with
  | nil => simp [sinceTicket?] at h
  | cons action history ih =>
      rw [requestCount_cons]
      rw [sinceTicket?] at h
      by_cases hGives : action.givesTicket = true
      · have hStarts :=
          Action.startsRequest_of_givesTicket hGives
        rw [if_pos hGives] at h
        rw [if_pos hStarts]
        by_cases hIndex : index = 0
        · rw [if_pos hIndex, Option.some.injEq] at h
          subst h
          omega
        · rw [if_neg hIndex] at h
          have hLt := ih h
          omega
      · rw [if_neg hGives] at h
        have hLt := ih h
        omega

/-
  The generation of a ticket is the number of requests in a
  history up to it.
-/
theorem issued_getElem?
    (count index : Nat)
    (history : List Action) :
    (issued count history)[index]? =
      (sinceTicket? index history).map fun since =>
        count + (requestCount history - requestCount since) := by
  induction history generalizing count index with
  | nil => simp [issued, sinceTicket?]
  | cons action history ih =>
      -- One more request counts before every later ticket.
      have hShift :
          ∀ index,
            (issued (count + 1) history)[index]? =
              (sinceTicket? index history).map fun since =>
                count + (requestCount history + 1 -
                  requestCount since) := by
        intro index
        rw [ih]
        cases hSince : sinceTicket? index history with
        | none => rfl
        | some since =>
            have hLt := requestCount_sinceTicket? hSince
            simp only [Option.map_some, Option.some.injEq]
            omega
      rw [issued, sinceTicket?, requestCount_cons]
      by_cases hGives : action.givesTicket = true
      · have hStarts :=
          Action.startsRequest_of_givesTicket hGives
        rw [if_pos hGives, if_pos hGives, if_pos hStarts,
          List.getElem?_cons]
        by_cases hIndex : index = 0
        · rw [if_pos hIndex, if_pos hIndex, Option.map_some,
            Option.some.injEq]
          omega
        · rw [if_neg hIndex, if_neg hIndex]
          exact hShift (index - 1)
      · rw [if_neg hGives, if_neg hGives]
        by_cases hStarts : action.startsRequest = true
        · rw [if_pos hStarts, if_pos hStarts]
          exact hShift index
        · rw [if_neg hStarts, if_neg hStarts]
          exact ih count index

/- A generation is issued for every ticket. -/
theorem length_issued
    (count : Nat)
    (history : List Action) :
    (issued count history).length =
      history.countP (·.givesTicket) := by
  induction history generalizing count with
  | nil => rfl
  | cons action history ih =>
      rw [issued, List.countP_cons]
      by_cases hGives : action.givesTicket = true
      · rw [if_pos hGives, if_pos hGives, List.length_cons, ih]
      · rw [if_neg hGives, if_neg hGives]
        split
        · exact ih (count + 1)
        · exact ih count

------------------------------------------------------------
-- Invariant
------------------------------------------------------------

namespace Session

/-
  A session tracks a history if its store has counted the
  requests, its tickets have been given out for them, and its
  snapshot is the last effect.
-/
structure Tracks
    (path : String)
    (history : List Action)
    (session : Session) : Prop where
  name : session.engine.store.name = path
  generation :
    session.engine.store.generation =
      UInt64.ofNat (requestCount history)
  tickets :
    session.tickets =
      (issued 0 history).map fun count =>
        ⟨UInt64.ofNat count⟩
  snapshot :
    session.engine.store.snapshot =
      (lastEffect? path [] history).getD .absent

/- A ticket counts in a session if the history says so. -/
theorem Tracks.honours
    {path : String}
    {history : List Action}
    {session : Session}
    (h : Tracks path history session)
    (hCount : requestCount history < UInt64.size)
    (index : Nat) :
    session.honours index = isNewest index history := by
  unfold Session.honours isNewest
  rw [h.tickets, List.getElem?_map, issued_getElem?]
  cases hSince : sinceTicket? index history with
  | none => rfl
  | some since =>
      have hLt := requestCount_sinceTicket? hSince
      have hGeneration :
          UInt64.ofNat (requestCount history) =
            UInt64.ofNat
                (requestCount history - requestCount since) +
              UInt64.ofNat (requestCount since) := by
        rw [← UInt64.ofNat_add]
        congr 1
        omega
      have hIff :
          UInt64.ofNat
                (requestCount history - requestCount since) +
              UInt64.ofNat (requestCount since) =
            UInt64.ofNat
              (requestCount history - requestCount since) ↔
            requestCount since = 0 :=
        Generation.add_ofNat_eq_self_iff (by omega)
      simp only [Option.map_some, Option.any_some,
        Store.isCurrent, h.generation, Nat.zero_add]
      rw [Bool.eq_iff_iff, beq_iff_eq, hGeneration, hIff,
        requestCount_eq_zero_iff]
      simp

/- An action leaves in a session what the history says. -/
theorem Tracks.leaves?
    {path : String}
    {history : List Action}
    {session : Session}
    (h : Tracks path history session)
    (hCount : requestCount history < UInt64.size)
    (action : Action) :
    session.leaves? action = action.effect? path history := by
  cases action <;>
    simp only [Session.leaves?, Action.effect?, h.name,
      h.honours hCount]

/- A fresh session has no history. -/
theorem tracks_new
    (path : String)
    (channel : Channel)
    (files : FileSystem)
    (logLimit : Option LogLevel) :
    Tracks path []
      (Session.new (.new path channel) files logLimit) := by
  constructor <;> rfl

/- An action is added to the history. -/
theorem Tracks.act
    {path : String}
    {history : List Action}
    {session : Session}
    (h : Tracks path history session)
    (hCount : requestCount history < UInt64.size)
    (action : Action) :
    Tracks path (history ++ [action])
      (session.act action).1 := by
  constructor
  · rw [(acts_act ..).store]
    exact h.name
  · rw [(acts_act ..).store, requestCount_append,
      requestCount_cons, requestCount_nil, Nat.zero_add]
    simp only [h.generation]
    split
    · rw [UInt64.ofNat_add]
      rfl
    · rfl
  · rw [(acts_act ..).tickets, issued_concat, List.map_append,
      h.tickets, h.generation]
    split
    · simp only [List.map_cons, List.map_nil, Nat.zero_add,
        UInt64.ofNat_add]
      rfl
    · rfl
  · rw [(acts_act ..).store, lastEffect?_concat, List.nil_append]
    simp only [h.leaves? hCount, h.snapshot]
    cases action.effect? path history <;> rfl

/- Actions are added to the history one after another. -/
theorem Tracks.actAll
    {path : String}
    {history : List Action}
    {session : Session}
    (actions : List Action)
    (h : Tracks path history session)
    (hCount : requestCount (history ++ actions) < UInt64.size) :
    Tracks path (history ++ actions)
      (session.actAll actions) := by
  induction actions generalizing history session with
  | nil =>
      rw [List.append_nil]
      exact h
  | cons action actions ih =>
      have hAll :
          history ++ action :: actions =
            history ++ [action] ++ actions := by
        simp
      have hPrefix : requestCount history < UInt64.size := by
        rw [requestCount_append] at hCount
        omega
      rw [hAll] at hCount ⊢
      exact ih (h.act hPrefix action) hCount

------------------------------------------------------------
-- Tickets
------------------------------------------------------------

/-
  A session accepts a ticket if committing with it changes the
  snapshot, and nothing but the snapshot, to what is committed:
  the document of a source, or word that it has none.
-/
structure Accepts
    (name : String)
    (index : Nat)
    (session : Session) : Prop where
  commit :
    ∀ source,
      let committed := session.act (.commit index source)
      match Document.parse name source with
      | .ok document =>
          committed.2 = .applied document ∧
            committed.1.engine.store =
              { session.engine.store with
                snapshot := .loaded document }
      | .error error =>
          committed.2 = .failed error ∧
            committed.1.engine.store =
              { session.engine.store with
                snapshot := .malformed }
  commitAbsent :
    (session.act (.commitAbsent index)).2 = .cleared true ∧
      (session.act (.commitAbsent index)).1.engine.store =
        { session.engine.store with snapshot := .absent }

/-
  A session refuses a ticket if committing with it is answered
  so, whatever the source, and leaves the store as it is.
-/
structure Refuses
    (index : Nat)
    (session : Session) : Prop where
  commit :
    ∀ source,
      (session.act (.commit index source)).2 = .superseded ∧
        (session.act (.commit index source)).1.engine.store =
          session.engine.store
  commitAbsent :
    (session.act (.commitAbsent index)).2 = .cleared false ∧
      (session.act (.commitAbsent index)).1.engine.store =
        session.engine.store

/- A ticket that counts is held and is the newest. -/
theorem exists_current_of_honours
    {index : Nat}
    {session : Session}
    (h : session.honours index = true) :
    ∃ ticket, session.tickets[index]? = some ticket ∧
      session.engine.store.isCurrent ticket = true := by
  cases hTicket : session.tickets[index]? with
  | none => simp [honours, hTicket] at h
  | some ticket =>
      have hCurrent :
          session.engine.store.isCurrent ticket = true := by
        simpa [honours, hTicket] using h
      exact ⟨ticket, rfl, hCurrent⟩

/- A ticket that counts is accepted. -/
theorem accepts_of_honours
    {index : Nat}
    {session : Session}
    (h : session.honours index = true) :
    session.Accepts session.engine.store.name index := by
  rcases exists_current_of_honours h with
    ⟨ticket, hTicket, hCurrent⟩
  constructor
  · intro source committed
    have hAnswer :
        committed.2 =
          .ofLoad
            (Document.parse session.engine.store.name
              source) := by
      unfold committed
      rw [(act_of_ticket hTicket).1 source]
      simp only [request, Store.commit, hCurrent, if_true,
        Store.apply]
      cases Document.parse session.engine.store.name
        source <;> rfl
    have hStore :
        committed.1.engine.store =
          { session.engine.store with
            snapshot :=
              .leftBy session.engine.store.name source } := by
      rw [(acts_act ..).store]
      simp [Session.leaves?, h, Action.startsRequest]
    unfold Snapshot.leftBy at hStore
    cases hParse :
        Document.parse session.engine.store.name source with
    | ok document =>
        rw [hParse] at hAnswer hStore
        exact ⟨hAnswer, hStore⟩
    | error error =>
        rw [hParse] at hAnswer hStore
        exact ⟨hAnswer, hStore⟩
  · constructor
    · rw [(act_of_ticket hTicket).2]
      simp only [request, Store.commitAbsent, hCurrent,
        if_true]
    · rw [(acts_act ..).store]
      simp [Session.leaves?, h, Action.startsRequest]

/- A ticket that is held but does not count is refused. -/
theorem refuses_of_not_honours
    {index : Nat}
    {session : Session}
    (hIndex : index < session.tickets.length)
    (h : session.honours index = false) :
    session.Refuses index := by
  have hTicket := List.getElem?_eq_getElem hIndex
  have hStale :
      session.engine.store.isCurrent
        (session.tickets[index]) = false := by
    simpa [honours, hTicket] using h
  constructor
  · intro source
    constructor
    · rw [(act_of_ticket hTicket).1 source]
      simp [request, Store.commit, hStale, Answer.ofCommit]
    · rw [(acts_act ..).store]
      simp [Session.leaves?, h, Action.startsRequest]
  · constructor
    · rw [(act_of_ticket hTicket).2]
      simp [request, Store.commitAbsent, hStale]
    · rw [(acts_act ..).store]
      simp [Session.leaves?, h, Action.startsRequest]

/- Tickets of a history are held by a session that tracks it. -/
theorem Tracks.index_lt
    {path : String}
    {history since : List Action}
    {session : Session}
    {index : Nat}
    (h : Tracks path history session)
    (hSince : sinceTicket? index history = some since) :
    index < session.tickets.length := by
  have hIssued := issued_getElem? 0 index history
  rw [hSince, Option.map_some] at hIssued
  rw [h.tickets, List.length_map]
  exact (List.getElem?_eq_some_iff.mp hIssued).1

/-
  What is seen of a session that holds a snapshot: a document
  is in force only while it is loaded.
-/
def Shows
    (snapshot : Snapshot)
    (session : Session) : Prop :=
  match snapshot with
  | .loaded document =>
      session.engine.current? = some document ∧
        session.engine.store.status = .loaded
  | .absent =>
      session.engine.current? = none ∧
        session.engine.store.status = .absent
  | .malformed =>
      session.engine.current? = none ∧
        session.engine.store.status = .malformed

/- A session shows what its store holds. -/
theorem shows_snapshot
    (session : Session) :
    session.Shows session.engine.store.snapshot := by
  unfold Shows Engine.current? Store.current? Store.status
  cases session.engine.store.snapshot <;> exact ⟨rfl, rfl⟩

/- There is a document in force exactly if one is loaded. -/
theorem current?_isSome_iff
    (session : Session) :
    session.engine.current?.isSome ↔
      session.engine.store.status = .loaded := by
  unfold Engine.current? Store.current? Store.status
  cases session.engine.store.snapshot <;>
    simp [Snapshot.document?, Snapshot.status]

end Session

/- A longer history does more after each of its tickets. -/
theorem sinceTicket?_append
    {index : Nat}
    {history since : List Action}
    (later : List Action)
    (h : sinceTicket? index history = some since) :
    sinceTicket? index (history ++ later) =
      some (since ++ later) := by
  induction history generalizing index with
  | nil => simp [sinceTicket?] at h
  | cons action history ih =>
      rw [sinceTicket?] at h
      rw [List.cons_append, sinceTicket?]
      by_cases hGives : action.givesTicket = true
      · rw [if_pos hGives] at h ⊢
        by_cases hIndex : index = 0
        · rw [if_pos hIndex, Option.some.injEq] at h
          rw [if_pos hIndex, h]
        · rw [if_neg hIndex] at h ⊢
          exact ih h
      · rw [if_neg hGives] at h ⊢
        exact ih h

/-
  Over every run, the store holds and shows what the last
  action left that took effect. Tickets are numbered as they
  are given out. One is accepted if no request has come after
  it; else it is refused now and ever after.
-/
theorem Session.ticket_protocol
    (path : String)
    (channel : Channel)
    (files : FileSystem)
    (logLimit : Option LogLevel)
    (history : List Action)
    (hCount : requestCount history < UInt64.size) :
    let fresh := Session.new (.new path channel) files logLimit
    let session := fresh.actAll history
    let expected := (lastEffect? path [] history).getD .absent
    session.engine.store.snapshot = expected ∧
      session.Shows expected ∧
      (session.engine.current?.isSome ↔
        session.engine.store.status = .loaded) ∧
      (session.act .beginReload).2 =
        .ticket (history.countP (·.givesTicket)) ∧
      ∀ index since,
        sinceTicket? index history = some since →
          if since.any (·.startsRequest) then
            ∀ later,
              requestCount (history ++ later) < UInt64.size →
                (fresh.actAll (history ++ later)).Refuses
                  index
          else
            session.Accepts path index := by
  intro fresh session expected
  have hFresh := tracks_new path channel files logLimit
  have hTracks : Tracks path history session :=
    hFresh.actAll history hCount
  have hNumber :
      session.tickets.length =
        history.countP (·.givesTicket) := by
    rw [hTracks.tickets, List.length_map, length_issued]
  have hShows : session.Shows expected := by
    unfold expected
    rw [← hTracks.snapshot]
    exact session.shows_snapshot
  refine
    ⟨hTracks.snapshot, hShows, current?_isSome_iff session,
      congrArg Answer.ticket hNumber, ?_⟩
  intro index since hSince
  split
  · rename_i hRequest
    intro later hLater
    have hTracks' :
        Tracks path (history ++ later)
          (fresh.actAll (history ++ later)) :=
      hFresh.actAll (history ++ later) hLater
    have hSince' := sinceTicket?_append later hSince
    apply refuses_of_not_honours (hTracks'.index_lt hSince')
    rw [hTracks'.honours hLater, isNewest, hSince']
    simp [List.any_append, hRequest]
  · rename_i hNoRequest
    have hHonours : session.honours index = true := by
      rw [hTracks.honours hCount, isNewest, hSince]
      simpa using hNoRequest
    have hAccepts := accepts_of_honours hHonours
    rw [hTracks.name] at hAccepts
    exact hAccepts

/-
  Of two tickets, the older one is refused and leaves the
  document that the newer one has loaded. The newer one is
  accepted more than once, and then nothing is in force any
  more if its source has no document.
-/
theorem Session.ticket_protocol_of_two :
    let loading : List Action :=
      [.beginReload, .beginReload, .commit 1 [0x7b, 0x7d],
        .commit 0 []]
    let failing := loading ++ [.commit 1 []]
    let fresh :=
      Session.new (.new "a.json" .host) (.exact []) none
    requestCount loading < UInt64.size ∧
      requestCount failing < UInt64.size ∧
      (fresh.actAll loading).engine.store.snapshot =
        .loaded ⟨.object []⟩ ∧
      (fresh.actAll failing).engine.store.snapshot =
        .malformed ∧
      (fresh.actAll failing).engine.current? = none ∧
      (fresh.actAll failing).Refuses 0 ∧
      (fresh.actAll failing).Accepts "a.json" 1 := by
  intro loading failing fresh
  have hLoading : requestCount loading < UInt64.size := by
    decide
  have hFailing : requestCount failing < UInt64.size := by
    decide
  have hDocument :
      (lastEffect? "a.json" [] loading).getD .absent =
        .loaded ⟨.object []⟩ := by
    change Snapshot.leftBy "a.json" [0x7b, 0x7d] = _
    rw [Snapshot.leftBy, Document.parse_emptyObject]
  have hNone :
      (lastEffect? "a.json" [] failing).getD .absent =
        .malformed := by
    change Snapshot.leftBy "a.json" [] = _
    rw [Snapshot.leftBy, Document.parse_nil]
  rcases
    ticket_protocol "a.json" .host (.exact []) none loading
      hLoading with
    ⟨hLoaded, -⟩
  rcases
    ticket_protocol "a.json" .host (.exact []) none failing
      hFailing with
    ⟨hMalformed, hShows, -, -, hTickets⟩
  rw [hNone] at hMalformed hShows
  refine
    ⟨hLoading, hFailing, hLoaded.trans hDocument, hMalformed,
      hShows.1, ?_, ?_⟩
  · exact hTickets 0 _ rfl [] hFailing
  · exact hTickets 1 _ rfl

end DottedRef
