import DottedRef.Proofs.Session.Endings

/-
  This file relates sessions that differ only in what has
  happened before: one mirrors another if their generations
  differ by a fixed offset and their snapshots are equal, or
  are those that both have started with. It proves that every
  change keeps that and is answered alike, as long as no
  document was in force at the start.

  Key definitions include:
    * `Store.Mirrors`
    * `Session.Mirrors`

  Key theorems include:
    * `Store.Mirrors.isCurrent`
    * `Store.Mirrors.change`
    * `Session.Mirrors.answer`
    * `Session.Mirrors.act`
    * `Session.Mirrors.finish`
-/

namespace DottedRef

------------------------------------------------------------
-- Stores
------------------------------------------------------------

/- A ticket that counts from a later generation on. -/
def Ticket.shift
    (offset : UInt64)
    (ticket : Ticket) : Ticket :=
  ⟨offset + ticket.generation⟩

namespace Store

/-
  A store mirrors another if it has started as the old one and
  the other as an empty one. Once the snapshots have been set
  they are equal, and until then they are the old ones.
-/
structure Mirrors
    (old : Store)
    (isSet : Bool)
    (first second : Store) : Prop where
  name : first.name = second.name
  generation :
    first.generation = old.generation + second.generation
  snapshot :
    if isSet then
      first.snapshot = second.snapshot
    else
      first.snapshot = old.snapshot ∧ second.snapshot = .absent

namespace Mirrors

variable {old first second : Store}
variable {isSet : Bool}

/- A ticket counts in one store as it does in the other. -/
theorem isCurrent
    (h : Mirrors old isSet first second)
    (ticket : Ticket) :
    first.isCurrent (ticket.shift old.generation) =
      second.isCurrent ticket := by
  unfold Store.isCurrent Ticket.shift
  rw [h.generation, Bool.eq_iff_iff, beq_iff_eq, beq_iff_eq]
  exact UInt64.add_right_inj old.generation

/- Without an old document the same documents are in force. -/
theorem current?
    (h : Mirrors old isSet first second)
    (hOld : old.current? = none) :
    first.current? = second.current? := by
  have hSnapshot := h.snapshot
  unfold Store.current? at hOld ⊢
  cases isSet with
  | true => rw [hSnapshot]
  | false =>
      rw [hSnapshot.1, hSnapshot.2, hOld]
      rfl

/- With the same documents the same endings are in force. -/
theorem suffixes
    (h : Mirrors old isSet first second)
    (hOld : old.current? = none) :
    first.suffixes = second.suffixes := by
  unfold Store.suffixes
  rw [h.current? hOld]

/-
  The status can differ only if the old source was malformed
  and no snapshot has been set.
-/
theorem of_status_ne
    (h : Mirrors old isSet first second)
    (hOld : old.current? = none)
    (hStatus : first.status ≠ second.status) :
    old.status = .malformed ∧ isSet = false := by
  have hSnapshot := h.snapshot
  unfold Store.status at hStatus ⊢
  unfold Store.current? at hOld
  cases isSet with
  | true =>
      rw [hSnapshot] at hStatus
      exact absurd rfl hStatus
  | false =>
      rw [hSnapshot.1, hSnapshot.2] at hStatus
      cases hCase : old.snapshot with
      | loaded document =>
          rw [hCase] at hOld
          simp [Snapshot.document?] at hOld
      | absent =>
          rw [hCase] at hStatus
          exact absurd rfl hStatus
      | malformed => exact ⟨rfl, rfl⟩

/-
  Changing both snapshots in the same way, and taking a
  generation on both sides, keeps a store mirroring.
-/
theorem change
    (h : Mirrors old isSet first second)
    (snapshot? : Option Snapshot)
    (takes : Bool) :
    Mirrors old (isSet || snapshot?.isSome)
      { first with
        snapshot := snapshot?.getD first.snapshot
        generation :=
          if takes then
            first.generation + 1
          else
            first.generation }
      { second with
        snapshot := snapshot?.getD second.snapshot
        generation :=
          if takes then
            second.generation + 1
          else
            second.generation } := by
  refine ⟨h.name, ?_, ?_⟩
  · cases takes with
    | true =>
        simp only [if_true]
        rw [h.generation, UInt64.add_assoc]
    | false => exact h.generation
  · cases snapshot? with
    | some snapshot => simp
    | none =>
        rw [Option.isSome_none, Bool.or_false]
        exact h.snapshot

end Mirrors

end Store

------------------------------------------------------------
-- Queries
------------------------------------------------------------

namespace Engine

variable {first second : Engine}

/- Diagnostics depend on the document in force only. -/
theorem diagnostics_congr
    (h : first.current? = second.current?) :
    first.diagnostics = second.diagnostics := by
  funext name text
  simp only [diagnostics, lookups, h]

/- Candidates depend on the document in force only. -/
theorem candidates_congr
    (h : first.current? = second.current?) :
    first.candidates = second.candidates := by
  funext text caret
  simp only [candidates, draftLookup?, h]

/- Completion depends on the document in force only. -/
theorem completion_congr
    (h : first.current? = second.current?) :
    first.completion = second.completion := by
  funext text caret
  simp only [completion, candidates_congr h]

/- So does completion with values. -/
theorem completionItems_congr
    (h : first.current? = second.current?) :
    first.completionItems = second.completionItems := by
  funext text caret
  simp only [completionItems, candidates_congr h]

/- Hovering depends on the document in force only. -/
theorem hover_congr
    (h : first.current? = second.current?) :
    first.hover = second.hover := by
  funext text offset
  simp only [hover, hoverLookup?, h]

end Engine

------------------------------------------------------------
-- Actions
------------------------------------------------------------

/- What an action makes of the files. -/
def Action.filesAfter
    (files : FileSystem) : Action → FileSystem
  | .setFile path contents => files.set path contents
  | .removeFile path => files.remove path
  | .makeDirectory path => files.makeDirectory path
  | _ => files

/- What an action keeps of the document in force. -/
def Action.keeps
    (document : Option Document) :
    Action → List (Option Document)
  | .hold => [document]
  | _ => []

namespace Session

/- Actions change files and keep documents as they say. -/
theorem act_files_held
    (session : Session)
    (action : Action) :
    (session.act action).1.files =
        action.filesAfter session.files ∧
      (session.act action).1.held =
        session.held ++
          action.keeps session.engine.current? := by
  have hNil : session.held = session.held ++ [] :=
    (List.append_nil _).symm
  cases action with
  | commit index source =>
      cases hTicket : session.tickets[index]? with
      | none =>
          rw [(act_of_no_ticket hTicket).1]
          exact ⟨rfl, hNil⟩
      | some ticket =>
          rw [(act_of_ticket hTicket).1]
          exact ⟨rfl, hNil⟩
  | commitAbsent index =>
      cases hTicket : session.tickets[index]? with
      | none =>
          rw [(act_of_no_ticket hTicket).2]
          exact ⟨rfl, hNil⟩
      | some ticket =>
          rw [(act_of_ticket hTicket).2]
          exact ⟨rfl, hNil⟩
  | held index =>
      unfold act
      cases hHeld : session.held[index]? <;>
        simp [hHeld, Action.filesAfter, Action.keeps]
  | hold => exact ⟨rfl, rfl⟩
  | _ => exact ⟨rfl, hNil⟩

end Session

------------------------------------------------------------
-- Sessions
------------------------------------------------------------

namespace Session

/-
  A session mirrors another that has started fresh if its
  store does, its tickets are the other's, shifted by the
  generations that the old session had taken, and the user was
  told what the old session told and then the same.
-/
structure Mirrors
    (old : Session)
    (isSet : Bool)
    (first second : Session) : Prop where
  configPath :
    first.engine.configPath = second.engine.configPath
  store :
    Store.Mirrors old.engine.store isSet first.engine.store
      second.engine.store
  tickets :
    first.tickets =
      second.tickets.map
        (·.shift old.engine.store.generation)
  held : first.held = second.held
  files : first.files = second.files
  notices :
    first.engine.notices =
      old.engine.notices ++ second.engine.notices

namespace Mirrors

variable {old first second : Session}
variable {isSet : Bool}

/- Logging keeps a session mirroring. -/
theorem record
    (h : Mirrors old isSet first second)
    (firstEntries secondEntries : List LogEntry) :
    Mirrors old isSet (first.record firstEntries)
      (second.record secondEntries) :=
  ⟨h.configPath, h.store, h.tickets, h.held, h.files,
    h.notices⟩

/- Starting a reload on both sides keeps a session mirroring. -/
theorem asking
    (h : Mirrors old isSet first second) :
    Mirrors old isSet first.asking second.asking := by
  have hStore := h.store.change none true
  rw [Option.isSome_none, Bool.or_false] at hStore
  exact
    ⟨h.configPath, hStore, h.tickets, h.held, h.files,
      h.notices⟩

/- A reload takes the same ticket, shifted. -/
theorem startReload
    (h : Mirrors old isSet first second) :
    first.engine.startReload.2 =
      second.engine.startReload.2.shift
        old.engine.store.generation := by
  have hGeneration := h.asking.store.generation
  exact congrArg Ticket.mk hGeneration

/- Both sides watch the same paths. -/
theorem watches
    (h : Mirrors old isSet first second)
    (path : String) :
    first.engine.watches path = second.engine.watches path := by
  unfold Engine.watches
  rw [h.configPath]

/- The same ticket is found on both sides, shifted. -/
theorem ticket
    (h : Mirrors old isSet first second)
    (index : Nat) :
    first.tickets[index]? =
      second.tickets[index]?.map
        (·.shift old.engine.store.generation) := by
  rw [h.tickets, List.getElem?_map]

/- The same tickets are the newest on both sides. -/
theorem honours
    (h : Mirrors old isSet first second)
    (index : Nat) :
    first.honours index = second.honours index := by
  unfold Session.honours
  rw [h.ticket]
  cases second.tickets[index]? with
  | none => rfl
  | some ticket => exact h.store.isCurrent ticket

/- An action leaves the same on both sides. -/
theorem leaves?
    (h : Mirrors old isSet first second)
    (action : Action) :
    first.leaves? action = second.leaves? action := by
  cases action <;>
    simp only [Session.leaves?, h.store.name, h.honours]

------------------------------------------------------------
-- Actions
------------------------------------------------------------

/- Committing to a ticket is answered alike. -/
theorem commit
    (h : Mirrors old isSet first second)
    (index : Nat)
    (source : List UInt8) :
    (first.act (.commit index source)).2 =
      (second.act (.commit index source)).2 := by
  have hTicket := h.ticket index
  cases hSecond : second.tickets[index]? with
  | none =>
      rw [hSecond] at hTicket
      rw [(act_of_no_ticket hTicket).1,
        (act_of_no_ticket hSecond).1]
  | some ticket =>
      rw [hSecond] at hTicket
      rw [(act_of_ticket hTicket).1,
        (act_of_ticket hSecond).1]
      unfold request Store.commit Store.apply
      dsimp only
      rw [h.store.isCurrent, h.store.name]
      cases second.engine.store.isCurrent ticket <;> rfl

/- Clearing with a ticket is answered alike. -/
theorem commitAbsent
    (h : Mirrors old isSet first second)
    (index : Nat) :
    (first.act (.commitAbsent index)).2 =
      (second.act (.commitAbsent index)).2 := by
  have hTicket := h.ticket index
  cases hSecond : second.tickets[index]? with
  | none =>
      rw [hSecond] at hTicket
      rw [(act_of_no_ticket hTicket).2,
        (act_of_no_ticket hSecond).2]
  | some ticket =>
      rw [hSecond] at hTicket
      rw [(act_of_ticket hTicket).2,
        (act_of_ticket hSecond).2]
      unfold request Store.commitAbsent
      dsimp only
      rw [h.store.isCurrent]
      cases second.engine.store.isCurrent ticket <;> rfl

/- Every action is answered alike. -/
theorem answer
    (h : Mirrors old isSet first second)
    (action : Action)
    (hOld : old.engine.current? = none) :
    (first.act action).2 = (second.act action).2 := by
  have hCurrent :
      first.engine.current? = second.engine.current? :=
    h.store.current? hOld
  have hSuffixes :
      first.engine.store.suffixes =
        second.engine.store.suffixes :=
    h.store.suffixes hOld
  cases action with
  | storeReload source =>
      simp only [Session.act, request, Store.reload,
        Store.advance, Store.apply, h.store.name]
  | beginReload =>
      simp only [Session.act, h.tickets, List.length_map]
  | commit index source => exact h.commit index source
  | commitAbsent index => exact h.commitAbsent index
  | storeDelete => rfl
  | current => simp only [Session.act, hCurrent]
  | suffixes => simp only [Session.act, hSuffixes]
  | hold => simp only [Session.act, h.held]
  | held index =>
      simp only [Session.act, h.held, hCurrent]
      cases second.held[index]? <;> rfl
  | setFile path contents => rfl
  | removeFile path => rfl
  | makeDirectory path => rfl
  | diagnostics name text =>
      simp only [Session.act,
        Engine.diagnostics_congr hCurrent]
  | completion text carets =>
      simp only [Session.act, Engine.completion_congr hCurrent]
  | completionItems text carets =>
      simp only [Session.act,
        Engine.completionItems_congr hCurrent]
  | hover text offsets =>
      simp only [Session.act, Engine.hover_congr hCurrent]
  | options => simp only [Session.act, h.configPath]

/- An action keeps a session mirroring. -/
theorem act
    (h : Mirrors old isSet first second)
    (action : Action)
    (hOld : old.engine.current? = none) :
    Mirrors old (isSet || (second.leaves? action).isSome)
      (first.act action).1 (second.act action).1 := by
  have hFirst := acts_act first action
  have hSecond := acts_act second action
  have hCurrent :
      first.engine.current? = second.engine.current? :=
    h.store.current? hOld
  constructor
  · rw [hFirst.configPath, hSecond.configPath, h.configPath]
  · rw [hFirst.store, hSecond.store, h.leaves?]
    exact h.store.change _ action.startsRequest
  · rw [hFirst.tickets, hSecond.tickets, h.tickets,
      List.map_append, h.store.generation]
    -- Both tickets count from one more than their store does.
    congr 1
    cases action.givesTicket with
    | true =>
        simp only [if_true, List.map_cons, List.map_nil,
          Ticket.shift, UInt64.add_assoc]
    | false => rfl
  · rw [(act_files_held first action).2,
      (act_files_held second action).2, h.held, hCurrent]
  · rw [(act_files_held first action).1,
      (act_files_held second action).1, h.files]
  · rw [hFirst.notices, hSecond.notices, h.notices]

------------------------------------------------------------
-- Reloads
------------------------------------------------------------

/- A reload in time ends as one, and sets the snapshot. -/
theorem finish
    (h : Mirrors old isSet first second)
    (ticket : Ticket)
    (finding : Engine.Finding) :
    let ahead :=
      first.finish (ticket.shift old.engine.store.generation)
        finding
    let behind := second.finish ticket finding
    ahead.2 = behind.2 ∧
      Mirrors old
        (isSet || (Ending.reloaded behind.2).isReload)
        ahead.1 behind.1 := by
  intro ahead behind
  have hConfigPath :
      ahead.1.engine.configPath =
        behind.1.engine.configPath := by
    rw [finish_configPath, finish_configPath, h.configPath]
  have hIsCurrent := h.store.isCurrent ticket
  cases hCurrent : second.engine.store.isCurrent ticket with
  | true =>
      rw [hCurrent] at hIsCurrent
      have hFirst := finish_of_current finding hIsCurrent
      have hSecond := finish_of_current finding hCurrent
      rw [h.configPath, h.store.name] at hFirst
      have hAnswer : ahead.2 = behind.2 :=
        hFirst.1.trans hSecond.1.symm
      have hIsReload :
          (Ending.reloaded behind.2).isReload = true := by
        apply Ending.isReload_of_ne
        rw [hSecond.1]
        exact Engine.Finding.answer_verdict_ne _ _ finding
      have hStore :=
        h.store.change
          (some
            (finding.verdict second.engine.configPath
              second.engine.store.name).snapshot) false
      refine
        ⟨hAnswer, hConfigPath, ?_, h.tickets, h.held, h.files,
          ?_⟩
      · rw [hIsReload, hFirst.2.1, hSecond.2.1]
        exact hStore
      · rw [hFirst.2.2, hSecond.2.2, h.notices,
          List.append_assoc]
  | false =>
      rw [hCurrent] at hIsCurrent
      have hFirst := finish_of_stale finding hIsCurrent
      have hSecond := finish_of_stale finding hCurrent
      have hAnswer : ahead.2 = behind.2 :=
        hFirst.1.trans hSecond.1.symm
      have hIsReload :
          (Ending.reloaded behind.2).isReload = false := by
        rw [hSecond.1]
        rfl
      refine
        ⟨hAnswer, hConfigPath, ?_, h.tickets, h.held, h.files,
          ?_⟩
      · rw [hIsReload, Bool.or_false, hFirst.2.1, hSecond.2.1]
        exact h.store
      · rw [hFirst.2.2, hSecond.2.2, h.notices]

/- Dropping the configuration sets the snapshot. -/
theorem dropConfig
    (h : Mirrors old isSet first second)
    (path : String) :
    Mirrors old true
      (first.withEngine (first.engine.dropConfig path))
      (second.withEngine
        (second.engine.dropConfig path)) := by
  have hStore := h.store.change (some .absent) true
  rw [Option.isSome_some, Bool.or_true] at hStore
  refine ⟨?_, ?_, h.tickets, h.held, h.files, ?_⟩
  · simp [withEngine, Engine.dropConfig, h.configPath]
  · simpa [withEngine, Engine.dropConfig, Store.delete,
      Store.advance] using hStore
  · simp [withEngine, Engine.dropConfig, h.notices]

end Mirrors

end Session

end DottedRef
