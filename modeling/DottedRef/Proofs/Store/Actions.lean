import DottedRef.Session

/-
  This file states what an action makes of a session: which
  generation it leaves in the store, which snapshot if it
  takes effect, and which tickets it gives out.

  Key definitions include:
    * `Action.startsRequest`
    * `Snapshot.leftBy`
    * `Session.leaves?`
    * `Session.Acts`

  Key theorems include:
    * `Generation.add_ofNat_eq_self_iff`
    * `Document.parse_emptyObject`
    * `Document.parse_nil`
    * `Snapshot.ofParsed_parse`
    * `Session.acts_act`
-/

namespace DottedRef

------------------------------------------------------------
-- Generations
------------------------------------------------------------

/-
  Generations wrap around, but not within fewer requests than
  there are generations.
-/
theorem Generation.add_ofNat_eq_self_iff
    {generation : UInt64}
    {count : Nat}
    (hCount : count < UInt64.size) :
    generation + UInt64.ofNat count = generation ↔
      count = 0 := by
  constructor
  · intro h
    have hNat := congrArg UInt64.toNat h
    have hBound := generation.toNat_lt
    rw [UInt64.toNat_add, UInt64.toNat_ofNat'] at hNat
    unfold UInt64.size at hCount
    omega
  · intro h
    subst h
    exact UInt64.add_zero generation

------------------------------------------------------------
-- Requests
------------------------------------------------------------

namespace Action

/- Whether an action takes a new generation. -/
def startsRequest : Action → Bool
  | storeReload _ => true
  | beginReload => true
  | storeDelete => true
  | _ => false

/- Whether an action gives out a ticket. -/
def givesTicket : Action → Bool
  | beginReload => true
  | _ => false

/- Only requests give out tickets. -/
theorem startsRequest_of_givesTicket
    {action : Action}
    (h : action.givesTicket) :
    action.startsRequest := by
  cases action <;> simp_all [givesTicket, startsRequest]

end Action

------------------------------------------------------------
-- Sources
------------------------------------------------------------

/- An empty object is a document. -/
theorem Document.parse_emptyObject
    (name : String) :
    parse name [0x7b, 0x7d] = .ok ⟨.object []⟩ := by
  have hEntries :
      Json.readEntries 126 true [0x7d] =
        .ok ⟨[], [], by decide⟩ := by
    rw [Json.readEntries]
    rfl
  have hNode :
      Json.readNode Json.depthLimit [0x7b, 0x7d] =
        .ok ⟨.object [], [], by decide⟩ := by
    rw [Json.readNode]
    change (Json.readEntries 126 true [0x7d] >>= _) = _
    rw [hEntries]
    rfl
  unfold parse Json.Node.parse Json.readText
  rw [hNode]
  rfl

/- An empty source is no document. -/
theorem Document.parse_nil
    (name : String) :
    parse name [] =
      .error (.malformed name "" ⟨0, 0⟩
        "EOF while parsing a value at line 1 column 0") := by
  have hNode :
      Json.readNode Json.depthLimit [] =
        .error (.next .endInValue []) := by
    rw [Json.readNode]
    rfl
  have hDecoded : Utf8.decodeLossy [] = [] := by
    rw [Utf8.decodeLossy]
  have hLine : Decimal.text 1 = "1" := by
    rw [Decimal.text, Decimal.digits]
    rfl
  have hColumn : Decimal.text 0 = "0" := by
    rw [Decimal.text, Decimal.digits]
    rfl
  unfold parse Json.Node.parse Json.readText
  rw [hNode]
  change
    Except.error (LoadError.malformed name
      (String.ofList (Utf8.decodeLossy [])) (faultSpan [] 1 0)
      (_ ++ Decimal.text 1 ++ _ ++ Decimal.text 0)) = _
  unfold faultSpan decodedOffset
  simp only [List.take_nil, hDecoded, hLine, hColumn]
  rfl

/-
  What loading a source leaves in a store: its document, or
  word that it has none.
-/
def Snapshot.leftBy
    (name : String)
    (source : List UInt8) : Snapshot :=
  match Document.parse name source with
  | .ok document => .loaded document
  | .error _ => .malformed

/- Loading the parse of a source leaves what the source does. -/
@[simp] theorem Snapshot.ofParsed_parse
    (name : String)
    (source : List UInt8) :
    ofParsed (Document.parse name source) =
      leftBy name source := by
  unfold leftBy
  cases Document.parse name source <;> rfl

------------------------------------------------------------
-- Effects
------------------------------------------------------------

namespace Session

/- Whether a session has a ticket and it is the newest. -/
def honours
    (session : Session)
    (index : Nat) : Bool :=
  session.tickets[index]?.any session.engine.store.isCurrent

/-
  What an action leaves in the store of a session, if it has
  an effect on the snapshot at all.
-/
def leaves?
    (session : Session) : Action → Option Snapshot
  | .storeReload source =>
      some (.leftBy session.engine.store.name source)
  | .storeDelete => some .absent
  | .commit index source =>
      if session.honours index then
        some (.leftBy session.engine.store.name source)
      else
        none
  | .commitAbsent index =>
      if session.honours index then some .absent else none
  | _ => none

/- A ticket that is not held has no effect on a session. -/
theorem act_of_no_ticket
    {session : Session}
    {index : Nat}
    (h : session.tickets[index]? = none) :
    (∀ source, session.act (.commit index source) =
        (session, .unknownTicket)) ∧
      session.act (.commitAbsent index) =
        (session, .unknownTicket) := by
  constructor
  · intro source
    simp only [act, h]
  · simp only [act, h]

/- A ticket that is held is used on the store. -/
theorem act_of_ticket
    {session : Session}
    {index : Nat}
    {ticket : Ticket}
    (h : session.tickets[index]? = some ticket) :
    (∀ source, session.act (.commit index source) =
        session.request
          (session.engine.store.commit ticket source)
          .ofCommit) ∧
      session.act (.commitAbsent index) =
        session.request
          (session.engine.store.commitAbsent ticket)
          .cleared := by
  constructor
  · intro source
    simp only [act, h]
  · simp only [act, h]

/-
  What an action makes of a session: it changes the snapshot
  to what it leaves and the generation by the request that it
  starts, and tells the user nothing.
-/
structure Acts
    (action : Action)
    (first last : Session) : Prop where
  store :
    last.engine.store =
      { first.engine.store with
        snapshot :=
          (first.leaves? action).getD
            first.engine.store.snapshot
        generation :=
          if action.startsRequest then
            first.engine.store.generation + 1
          else
            first.engine.store.generation }
  tickets :
    last.tickets =
      first.tickets ++
        if action.givesTicket then
          [⟨first.engine.store.generation + 1⟩]
        else
          []
  configPath :
    last.engine.configPath = first.engine.configPath
  notices : last.engine.notices = first.engine.notices

/- Every action makes that of a session. -/
theorem acts_act
    (session : Session)
    (action : Action) :
    Acts action session (session.act action).1 := by
  cases action with
  | storeReload source =>
      constructor <;>
        simp [act, leaves?, Action.startsRequest,
          Action.givesTicket, request, withEngine,
          Engine.adopt, Engine.record, Store.reload,
          Store.advance, Store.apply]
  | commit index source =>
      cases hTicket : session.tickets[index]? with
      | none =>
          rw [(act_of_no_ticket hTicket).1 source]
          constructor <;>
            simp [leaves?, honours, hTicket,
              Action.startsRequest, Action.givesTicket]
      | some ticket =>
          rw [(act_of_ticket hTicket).1 source]
          by_cases hCurrent :
              session.engine.store.isCurrent ticket = true
          · constructor <;>
              simp [leaves?, honours, hTicket, hCurrent,
                Action.startsRequest, Action.givesTicket,
                request, withEngine, Engine.adopt,
                Engine.record, Store.commit, Store.apply]
          · constructor <;>
              simp [leaves?, honours, hTicket, hCurrent,
                Action.startsRequest, Action.givesTicket,
                request, withEngine, Engine.adopt,
                Engine.record, Store.commit]
  | commitAbsent index =>
      cases hTicket : session.tickets[index]? with
      | none =>
          rw [(act_of_no_ticket hTicket).2]
          constructor <;>
            simp [leaves?, honours, hTicket,
              Action.startsRequest, Action.givesTicket]
      | some ticket =>
          rw [(act_of_ticket hTicket).2]
          by_cases hCurrent :
              session.engine.store.isCurrent ticket = true
          · constructor <;>
              simp [leaves?, honours, hTicket, hCurrent,
                Action.startsRequest, Action.givesTicket,
                request, withEngine, Engine.adopt,
                Engine.record, Store.commitAbsent]
          · constructor <;>
              simp [leaves?, honours, hTicket, hCurrent,
                Action.startsRequest, Action.givesTicket,
                request, withEngine, Engine.adopt,
                Engine.record, Store.commitAbsent]
  | held index =>
      unfold act
      cases hHeld : session.held[index]? <;>
        constructor <;>
          simp [hHeld, leaves?, Action.startsRequest,
            Action.givesTicket]
  | _ =>
      constructor
      · rfl
      · first
          | rfl
          | exact (List.append_nil _).symm
      · rfl
      · rfl

end Session

end DottedRef
