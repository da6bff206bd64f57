import DottedRef.Proofs.Session.Mirrors
import DottedRef.Proofs.Session.Moments
import DottedRef.Proofs.Session.Reachable

/-
  This file proves that a session without a configuration
  behaves like a fresh one, whatever has happened in it: the
  same steps are answered alike, tell the user the same, and
  leave the same documents in force.

  Key definitions include:
    * `Moment.Agrees`
    * `AllAgree`
    * `Session.Follows`
    * `Session.anew`

  Key theorems include:
    * `Session.Mirrors.reload`
    * `Session.Mirrors.perform`
    * `Session.Mirrors.runSteps`
    * `Session.unloaded_as_fresh`
-/

namespace DottedRef

------------------------------------------------------------
-- Moments
------------------------------------------------------------

/-
  Moments agree if the same was answered and told and the same
  documents are in force. The status may differ only as long
  as the old one is malformed and no snapshot has been set.
-/
structure Moment.Agrees
    (old : Session)
    (isSet : Bool)
    (first second : Moment) : Prop where
  answer : first.answer = second.answer
  sets : first.sets = second.sets
  notices :
    first.engine.notices =
      old.engine.notices ++ second.engine.notices
  current :
    first.engine.current? = second.engine.current?
  suffixes :
    first.engine.store.suffixes = second.engine.store.suffixes
  status :
    first.engine.store.status = second.engine.store.status ∨
      old.engine.store.status = .malformed ∧ isSet = false

/- Whether any moment sets the snapshot. -/
def anySets
    (moments : List Moment) : Bool :=
  moments.any (·.sets)

/- Moments agree one by one. -/
inductive AllAgree
    (old : Session) :
    Bool → List Moment → List Moment → Prop
  | nil
      {isSet : Bool} :
      AllAgree old isSet [] []
  | cons
      {isSet : Bool}
      {first second : Moment}
      {firsts seconds : List Moment}
      (head : first.Agrees old (isSet || second.sets) second)
      (tail :
        AllAgree old (isSet || second.sets) firsts seconds) :
      AllAgree old isSet (first :: firsts) (second :: seconds)

namespace AllAgree

variable {old : Session}
variable {isSet : Bool}
variable {firsts seconds : List Moment}

/- Moments that agree may be followed by others. -/
theorem append
    {firstRest secondRest : List Moment}
    (h : AllAgree old isSet firsts seconds)
    (hRest :
      AllAgree old (isSet || anySets seconds) firstRest
        secondRest) :
    AllAgree old isSet (firsts ++ firstRest)
      (seconds ++ secondRest) := by
  induction h with
  | nil =>
      rw [anySets, List.any_nil, Bool.or_false] at hRest
      exact hRest
  | cons head tail ih =>
      rw [anySets, List.any_cons, ← Bool.or_assoc] at hRest
      exact .cons head (ih hRest)

/- There are as many moments on both sides. -/
theorem length_eq
    (h : AllAgree old isSet firsts seconds) :
    firsts.length = seconds.length := by
  induction h with
  | nil => rfl
  | cons head tail ih =>
      rw [List.length_cons, List.length_cons, ih]

/- Moments at one place agree. -/
theorem agrees
    {index : Nat}
    {first second : Moment}
    (h : AllAgree old isSet firsts seconds)
    (hFirst : firsts[index]? = some first)
    (hSecond : seconds[index]? = some second) :
    first.Agrees old
      (isSet || anySets (seconds.take (index + 1)))
      second := by
  induction h generalizing index with
  | nil => simp at hFirst
  | cons head tail ih =>
      cases index with
      | zero =>
          rw [List.getElem?_cons_zero] at hFirst hSecond
          rw [← Option.some.inj hFirst,
            ← Option.some.inj hSecond]
          simpa [anySets] using head
      | succ index =>
          rw [List.getElem?_cons_succ] at hFirst hSecond
          rw [List.take_succ_cons, anySets, List.any_cons,
            ← Bool.or_assoc]
          exact ih hFirst hSecond

end AllAgree

namespace Session

/- What is seen of sessions that mirror each other agrees. -/
theorem Mirrors.agrees
    {old first second : Session}
    {isSet sets : Bool}
    {answer : Answer}
    (h : Mirrors old isSet first second)
    (hOld : old.engine.current? = none) :
    Moment.Agrees old isSet ⟨answer, sets, first.engine⟩
      ⟨answer, sets, second.engine⟩ where
  answer := rfl
  sets := rfl
  notices := h.notices
  current := h.store.current? hOld
  suffixes := h.store.suffixes hOld
  status := by
    by_cases hStatus :
        first.engine.store.status = second.engine.store.status
    · exact .inl hStatus
    · exact .inr (h.store.of_status_ne hOld hStatus)

------------------------------------------------------------
-- Runs
------------------------------------------------------------

/-
  What happens on one side follows what happens on the other
  if the moments agree and the sessions then mirror each other.
-/
structure Follows
    (old : Session)
    (isSet : Bool)
    (first second : Session × List Moment) : Prop where
  moments : AllAgree old isSet first.2 second.2
  session :
    Mirrors old (isSet || anySets second.2) first.1 second.1

namespace Follows

variable {old : Session}
variable {isSet : Bool}

/- Nothing follows nothing. -/
theorem refl
    {first second : Session}
    (h : Mirrors old isSet first second) :
    Follows old isSet (first, []) (second, []) := by
  refine ⟨.nil, ?_⟩
  rw [anySets, List.any_nil, Bool.or_false]
  exact h

/- What follows may go on. -/
theorem append
    {first second firstLast secondLast :
      Session × List Moment}
    (h : Follows old isSet first second)
    (hLast :
      Follows old (isSet || anySets second.2) firstLast
        secondLast) :
    Follows old isSet
      (firstLast.1, first.2 ++ firstLast.2)
      (secondLast.1, second.2 ++ secondLast.2) := by
  refine ⟨h.moments.append hLast.moments, ?_⟩
  rw [anySets, List.any_append, ← Bool.or_assoc]
  exact hLast.session

/-
  What happens during the calls of an operation may end in its
  own moment.
-/
theorem concat
    {first second : Session}
    {firsts seconds : List Moment}
    {firstAnswer secondAnswer : Answer}
    {firstSets secondSets : Bool}
    (hAll : AllAgree old isSet firsts seconds)
    (hSession :
      Mirrors old (isSet || anySets seconds || secondSets)
        first second)
    (hAnswer : firstAnswer = secondAnswer)
    (hSets : firstSets = secondSets)
    (hOld : old.engine.current? = none) :
    Follows old isSet
      (first,
        firsts ++ [⟨firstAnswer, firstSets, first.engine⟩])
      (second,
        seconds ++
          [⟨secondAnswer, secondSets, second.engine⟩]) := by
  subst hAnswer hSets
  refine ⟨hAll.append (.cons (hSession.agrees hOld) .nil), ?_⟩
  dsimp only
  rw [anySets, List.any_append, List.any_cons, List.any_nil,
    Bool.or_false, ← Bool.or_assoc]
  exact hSession

/- An operation without calls has a single moment. -/
theorem single
    {first second : Session}
    {firstAnswer secondAnswer : Answer}
    {firstSets secondSets : Bool}
    (hSession :
      Mirrors old (isSet || secondSets) first second)
    (hAnswer : firstAnswer = secondAnswer)
    (hSets : firstSets = secondSets)
    (hOld : old.engine.current? = none) :
    Follows old isSet
      (first, [⟨firstAnswer, firstSets, first.engine⟩])
      (second,
        [⟨secondAnswer, secondSets, second.engine⟩]) := by
  refine Follows.concat .nil ?_ hAnswer hSets hOld
  rw [anySets, List.any_nil, Bool.or_false]
  exact hSession

end Follows

/- What runs during a call follows on both sides. -/
def Keeps
    (old : Session)
    (watch : Meanwhile (List Moment)) : Prop :=
  ∀ {isSet first second}, Mirrors old isSet first second →
    Follows old isSet (watch first) (watch second)

section Operations

variable {old first second : Session}
variable {isSet : Bool}
variable {watchExists watchRead : Meanwhile (List Moment)}

/- A reload has the same outcome on both sides. -/
theorem Mirrors.reload
    (h : Mirrors old isSet first second)
    (hExists : old.Keeps watchExists)
    (hRead : old.Keeps watchRead) :
    let ahead := first.reload watchExists watchRead
    let behind := second.reload watchExists watchRead
    ahead.outcome = behind.outcome ∧
      AllAgree old isSet ahead.during behind.during ∧
      Mirrors old
        (isSet || anySets behind.during ||
          (Ending.reloaded behind.outcome).isReload)
        ahead.session behind.session := by
  have hAsked := hExists h.asking
  unfold Session.reload reloadWith
  rw [h.configPath, h.files, h.startReload]
  dsimp only
  split
  · have hBoth := hAsked.append (hRead hAsked.session)
    rw [hAsked.session.files]
    have hFinish :=
      hBoth.session.finish second.engine.startReload.2
    exact
      ⟨(hFinish _).1, hBoth.moments, (hFinish _).2⟩
  · have hFinish :=
      hAsked.session.finish second.engine.startReload.2
        .missing
    simp only [Reload.during, Option.getD_some,
      Option.getD_none, List.append_nil]
    exact ⟨hFinish.1, hAsked.moments, hFinish.2⟩

/- An operation does the same on both sides. -/
theorem Mirrors.perform
    (h : Mirrors old isSet first second)
    (hOld : old.engine.current? = none)
    (hExists : old.Keeps watchExists)
    (hRead : old.Keeps watchRead)
    (operation : Operation) :
    let ahead := first.perform operation watchExists watchRead
    let behind :=
      second.perform operation watchExists watchRead
    Follows old isSet
      (ahead.session,
        ahead.during ++
          [⟨ahead.answer,
            first.sets operation watchExists watchRead,
            ahead.session.engine⟩])
      (behind.session,
        behind.during ++
          [⟨behind.answer,
            second.sets operation watchExists watchRead,
            behind.session.engine⟩]) := by
  have hReload := h.reload hExists hRead
  rcases hReload with ⟨hOutcome, hDuring, hSession⟩
  have hIsReload :=
    congrArg (fun outcome => (Ending.reloaded outcome).isReload)
      hOutcome
  cases operation with
  | act action =>
      exact
        Follows.single (h.act action hOld)
          (h.answer action hOld)
          (congrArg Option.isSome (h.leaves? action)) hOld
  | startUp =>
      exact
        Follows.concat hDuring hSession
          (congrArg Answer.ofStart hOutcome) hIsReload hOld
  | reload =>
      exact
        Follows.concat hDuring hSession
          (congrArg Answer.ofCommit hOutcome) hIsReload hOld
  | event kind path =>
      unfold Session.perform react sets ending
      simp only [Operation.role, h.watches]
      cases hWatched : second.engine.watches path with
      | true =>
          simp only [if_true]
          cases kind with
          | deleted =>
              refine Follows.single ?_ rfl rfl hOld
              rw [Bool.or_true]
              exact h.dropConfig path
          | created =>
              exact
                Follows.concat hDuring (hSession.record _ _)
                  rfl hIsReload hOld
          | changed =>
              exact
                Follows.concat hDuring (hSession.record _ _)
                  rfl hIsReload hOld
      | false =>
          simp only [Bool.false_eq_true, if_false]
          refine Follows.single ?_ rfl rfl hOld
          rw [Bool.or_false]
          exact h.record _ _

end Operations

variable {old first second : Session}
variable {isSet : Bool}

/- Reporting keeps a session mirroring. -/
theorem Mirrors.report
    (h : Mirrors old isSet first second)
    (firstNotices firstEntries : Nat)
    (secondNotices secondEntries : Nat) :
    Mirrors old isSet
      { first with
        noticesReported := firstNotices
        entriesReported := firstEntries }
      { second with
        noticesReported := secondNotices
        entriesReported := secondEntries } :=
  ⟨h.configPath, h.store, h.tickets, h.held, h.files,
    h.notices⟩

mutual

/- A step does the same on both sides. -/
theorem Mirrors.run
    {old : Session}
    (hOld : old.engine.current? = none) :
    ∀ (step : Step) {isSet : Bool} {first second : Session},
      Mirrors old isSet first second →
        Follows old isSet
          ((step.run first).1, step.moments first)
          ((step.run second).1, step.moments second)
  | .mk operation duringExists duringRead, isSet, first,
      second, h => by
      have hPerform :=
        h.perform hOld (runSteps hOld duringExists)
          (runSteps hOld duringRead) operation
      rw [run_eq_perform, run_eq_perform, Step.moments_mk,
        Step.moments_mk]
      exact
        ⟨hPerform.moments, hPerform.session.report _ _ _ _⟩

/- A run does the same on both sides. -/
theorem Mirrors.runSteps
    {old : Session}
    (hOld : old.engine.current? = none) :
    ∀ (steps : List Step), old.Keeps (watching steps)
  | [], isSet, first, second, h => by
      unfold watching
      rw [DottedRef.runSteps, DottedRef.runSteps, momentsOf,
        momentsOf]
      exact Follows.refl h
  | step :: steps, isSet, first, second, h => by
      have hStep := Mirrors.run hOld step h
      have hRest := Mirrors.runSteps hOld steps hStep.session
      unfold watching
      rw [DottedRef.runSteps, DottedRef.runSteps, momentsOf,
        momentsOf]
      exact hStep.append hRest

end

------------------------------------------------------------
-- Sessions Without a Configuration
------------------------------------------------------------

/-
  A session that goes on with new callers, who have no tickets
  and no documents from before.
-/
def anew
    (session : Session) : Session :=
  { session with tickets := [], held := [] }

/-
  A reachable session without a configuration mirrors a fresh
  one with the same files.
-/
theorem Reachable.mirrors
    {old : Session}
    (h : old.Reachable)
    (channel : Channel)
    (logLimit : Option LogLevel) :
    Mirrors old false old.anew
      (.new (.new old.engine.configPath channel) old.files
        logLimit) where
  configPath := rfl
  store := ⟨h.name, (UInt64.add_zero _).symm, rfl, rfl⟩
  tickets := rfl
  held := rfl
  files := rfl
  notices := (List.append_nil _).symm

/-
  Whatever has happened before, a session without a
  configuration goes on like a fresh one: whenever an operation
  ends, at any depth, the answers, the news for the user and
  the documents in force agree. Only a malformed source shows
  in the status, until the snapshot is set.
-/
theorem unloaded_as_fresh
    {old : Session}
    (hReachable : old.Reachable)
    (hUnloaded : old.engine.store.status ≠ .loaded)
    (channel : Channel)
    (logLimit : Option LogLevel)
    (steps : List Step) :
    let fresh :=
      Session.new (.new old.engine.configPath channel)
        old.files logLimit
    let moments := momentsOf steps old.anew
    let others := momentsOf steps fresh
    moments.length = others.length ∧
      ∀ (index : Nat) (moment other : Moment),
        moments[index]? = some moment →
        others[index]? = some other →
          moment.Agrees old
            (anySets (others.take (index + 1))) other := by
  intro fresh moments others
  have hOld : old.engine.current? = none := by
    unfold Engine.current? Store.current?
    unfold Store.status at hUnloaded
    cases hSnapshot : old.engine.store.snapshot with
    | loaded document =>
        rw [hSnapshot] at hUnloaded
        exact absurd rfl hUnloaded
    | absent => rfl
    | malformed => rfl
  -- Nothing has set the snapshot yet, so the flag is false.
  have hMirrors : Mirrors old false old.anew fresh :=
    hReachable.mirrors channel logLimit
  have hFollows := Mirrors.runSteps hOld steps hMirrors
  refine ⟨hFollows.moments.length_eq, ?_⟩
  intro index moment other hMoment hOther
  have hAgrees := hFollows.moments.agrees hMoment hOther
  rw [Bool.false_or] at hAgrees
  exact hAgrees

/-
  After a malformed source, and with a reload that was never
  finished, a commit to a new ticket is accepted as in a fresh
  session, and then the status is the same.
-/
theorem unloaded_as_fresh_of_malformed :
    let fresh :=
      Session.new (.new "a.json" .host) (.exact []) none
    let malformed := (fresh.act (.storeReload [])).1
    let old := (malformed.act .beginReload).1
    let steps :=
      [Step.mk (.act .beginReload) [] [],
        .mk (.act (.commit 0 "[]".toUTF8.toList)) [] []]
    old.Reachable ∧
      old.engine.store.status = .malformed ∧
      ∃ moment other,
        (momentsOf steps old.anew)[1]? = some moment ∧
        (momentsOf steps fresh)[1]? = some other ∧
        moment.answer = other.answer ∧
        moment.engine.store.status =
          other.engine.store.status := by
  intro fresh malformed old steps
  have hReachable : old.Reachable :=
    .act _ (.act _ (.new ..))
  have hStatus : old.engine.store.status = .malformed := by
    show (Snapshot.ofParsed
      (Document.parse "a.json" [])).status = .malformed
    rw [Document.parse_nil]
    rfl
  have hUnloaded : old.engine.store.status ≠ .loaded := by
    rw [hStatus]
    decide
  have hAgree :=
    unloaded_as_fresh hReachable hUnloaded .host none steps
  refine ⟨hReachable, hStatus, _, _, rfl, rfl, ?_⟩
  have hSecond := hAgree.2 1 _ _ rfl rfl
  refine ⟨hSecond.answer, ?_⟩
  rcases hSecond.status with hSame | ⟨-, hSets⟩
  · exact hSame
  · have hSet :
        anySets ((momentsOf steps fresh).take 2) = true := by
      rfl
    exact absurd (hSet.symm.trans hSets) (by decide)

end Session

end DottedRef
