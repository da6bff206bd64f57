import DottedRef.Proofs.Session.Requests

/-
  This file proves what becomes of a reload while other steps
  run during its calls to the file system. It is superseded
  exactly if one of them starts a request. If none does, what
  the file system answers and whether the bytes of the file
  are parsed decide how the reload ends.

  Key definitions include:
    * `Session.interference`
    * `Session.Reload.EndsWith`
    * `Session.Reload.EndsInTime`

  Key theorems include:
    * `Session.Counts.isCurrent_iff`
    * `Session.reloadWith_of_overtaken`
    * `Session.reloadWith_of_in_time`
    * `Session.Reload.endsInTime_of_verdict`
    * `Session.reload_under_interference`
-/

namespace DottedRef

namespace Session

------------------------------------------------------------
-- Interference
------------------------------------------------------------

/- The requests that start during the calls of a reload. -/
def interference
    (session : Session)
    (isThere : Bool)
    (duringExists duringRead : List Step) : List Started :=
  let asked := (runSteps duringExists session.asking).1
  startedBy duringExists session.asking ++
    if isThere then startedBy duringRead asked else []

/- A reload starts before what starts during its calls. -/
theorem startedByReload_eq
    (session : Session)
    (duringExists duringRead : List Step) :
    let asked := (runSteps duringExists session.asking).1
    session.startedByReload asked
        (startedBy duringExists session.asking)
        (startedBy duringRead asked) =
      [⟨session.engine.store.generation + 1,
        .file (session.found? asked)⟩] ++
        session.interference
          (session.files.contains session.engine.configPath)
          duringExists duringRead := by
  rfl

/-
  A reload is in time if no request has counted since it was
  started.
-/
theorem Counts.isCurrent_iff
    {requests : List Started}
    {session last : Session}
    (h : Counts requests session.asking last)
    (hCount : requests.length < UInt64.size) :
    last.engine.store.isCurrent session.engine.startReload.2 =
        true ↔
      requests = [] := by
  have hTicket :
      session.engine.startReload.2.generation =
        session.asking.engine.store.generation := by
    rfl
  unfold Store.isCurrent
  rw [beq_iff_eq, hTicket, h.generation,
    Generation.add_ofNat_eq_self_iff hCount,
    List.length_eq_zero_iff]

/- What runs during the calls of a reload counts. -/
theorem counts_interference
    (session : Session)
    (isThere : Bool)
    (duringExists duringRead : List Step) :
    Counts
      (session.interference isThere duringExists duringRead)
      session.asking
      (session.finishing isThere (runSteps duringExists)
        (runSteps duringRead)) :=
  counts_finishing isThere (counts_runSteps ..)
    (counts_runSteps ..)

/-
  Requests start during the calls of a reload if one of the
  steps that run then starts one.
-/
theorem interference_eq_nil_iff
    (session : Session)
    (isThere : Bool)
    (duringExists duringRead : List Step) :
    session.interference isThere duringExists duringRead =
        [] ↔
      (duringExists ++ if isThere then duringRead else []).any
          (·.startsRequest session.engine.configPath) =
        false := by
  have hSame :=
    sameSetting_runSteps duringExists session.asking
  have hPath :
      (runSteps duringExists
          session.asking).1.engine.configPath =
        session.engine.configPath :=
    hSame.configPath
  unfold interference
  rw [List.append_eq_nil_iff, startedBy_eq_nil_iff,
    List.any_append, Bool.or_eq_false_iff]
  cases isThere with
  | false => simp [asking, withEngine, Engine.startReload]
  | true =>
      simp only [if_true]
      rw [startedBy_eq_nil_iff, hPath]
      rfl

/-
  What runs during the calls of a reload keeps its setting.
-/
theorem sameSetting_finishing
    (session : Session)
    (isThere : Bool)
    (duringExists duringRead : List Step) :
    session.SameSetting
      (session.finishing isThere (runSteps duringExists)
        (runSteps duringRead)) := by
  have hAsked :=
    sameSetting_closed.trans
      (sameSetting_closed.asking session)
      (sameSetting_runSteps duringExists session.asking)
  unfold finishing
  cases isThere with
  | false => exact hAsked
  | true =>
      exact
        sameSetting_closed.trans hAsked
          (sameSetting_runSteps duringRead _)

------------------------------------------------------------
-- Reloads
------------------------------------------------------------

section Reloads

variable {session : Session}
variable {isThere : Bool}
variable {reading : Session → Except String (List UInt8)}
variable {duringExists duringRead : List Step}

/-
  A reload during whose calls a request starts only answers.
-/
theorem reloadWith_of_overtaken
    (hRequests :
      session.interference isThere duringExists
        duringRead ≠ [])
    (hCount :
      (session.interference isThere duringExists
        duringRead).length < UInt64.size) :
    let left :=
      (session.finishing isThere (runSteps duringExists)
        (runSteps duringRead)).engine
    let reload :=
      session.reloadWith isThere reading
        (runSteps duringExists) (runSteps duringRead)
    reload.outcome = .ok .superseded ∧
      reload.session.engine.store = left.store ∧
        reload.session.engine.notices = left.notices := by
  intro left reload
  have hStale :
      left.store.isCurrent session.engine.startReload.2 =
        false := by
    rw [Bool.eq_false_iff]
    intro hTrue
    apply hRequests
    exact
      ((session.counts_interference isThere duringExists
        duringRead).isCurrent_iff hCount).mp hTrue
  rcases
    reloadWith_eq_finish session isThere reading
      (runSteps duringExists) (runSteps duringRead) with
    ⟨hSession, hOutcome⟩
  rw [hSession, hOutcome]
  exact finish_of_stale _ hStale

/-
  A reload during whose calls no request starts has its
  verdict carried out.
-/
variable (reading) in
theorem reloadWith_of_in_time
    (hNone :
      session.interference isThere duringExists
        duringRead = []) :
    let left :=
      (session.finishing isThere (runSteps duringExists)
        (runSteps duringRead)).engine
    let verdict :=
      (finding isThere
        (reading
          (runSteps duringExists session.asking).1)).verdict
        session.engine.configPath session.engine.store.name
    let reload :=
      session.reloadWith isThere reading
        (runSteps duringExists) (runSteps duringRead)
    reload.outcome = verdict.answer ∧
      reload.session.engine.store =
        { left.store with snapshot := verdict.snapshot } ∧
      reload.session.engine.notices =
        left.notices ++ [verdict.notice] := by
  intro left verdict reload
  have hCount :
      (session.interference isThere duringExists
        duringRead).length < UInt64.size := by
    rw [hNone]
    decide
  have hCurrent :
      left.store.isCurrent session.engine.startReload.2 =
        true :=
    ((session.counts_interference isThere duringExists
      duringRead).isCurrent_iff hCount).mpr hNone
  have hSame :=
    session.sameSetting_finishing isThere duringExists
      duringRead
  have hFinish :=
    finish_of_current
      (finding isThere
        (reading (runSteps duringExists session.asking).1))
      hCurrent
  rw [hSame.configPath, hSame.name] at hFinish
  rcases
    reloadWith_eq_finish session isThere reading
      (runSteps duringExists) (runSteps duringRead) with
    ⟨hSession, hOutcome⟩
  rw [hSession, hOutcome]
  exact hFinish

end Reloads

------------------------------------------------------------
-- Reloads in Time
------------------------------------------------------------

/-
  A reload ends with an outcome if it answers so. It puts a
  snapshot into the store and tells the user one thing.
-/
structure Reload.EndsWith
    (left : Engine)
    (outcome : Except LoadError Store.Commit)
    (snapshot : Snapshot)
    (notice : Notice)
    (level : NoticeLevel)
    (reload : Reload ρ) : Prop where
  answers : reload.outcome = outcome
  stores :
    reload.session.engine.store =
      { left.store with snapshot := snapshot }
  tells :
    reload.session.engine.notices = left.notices ++ [notice]
  tellsAt : notice.level = level

/-
  How a reload in time ends, by what the file system answers.
  Only bytes that are parsed are loaded, and only a file that
  is not there is no error to the user.
-/
def Reload.EndsInTime
    (path name : String)
    (left : Engine)
    (isThere : Bool)
    (answer : Except String (List UInt8))
    (reload : Reload ρ) : Prop :=
  if isThere then
    match answer with
    | .ok bytes =>
        match Document.parse name bytes with
        | .ok document =>
            reload.EndsWith left (.ok (.applied document))
              (.loaded document) (.loaded path) .info
        | .error error =>
            (∃ sourceName text span reason,
              error =
                .malformed sourceName text span reason) ∧
              reload.EndsWith left (.error error) .malformed
                (.failed error) .error
    | .error reason =>
        reload.EndsWith left
          (.error (.unreadable path reason)) .absent
          (.failed (.unreadable path reason)) .error
  else
    reload.EndsWith left (.error (.missing path)) .absent
      (.failed (.missing path)) .info

/- A verdict that is carried out ends a reload in time. -/
theorem Reload.endsInTime_of_verdict
    {path name : String}
    {left : Engine}
    {isThere : Bool}
    {answer : Except String (List UInt8)}
    {reload : Reload ρ}
    (h :
      let verdict := (finding isThere answer).verdict path name
      reload.outcome = verdict.answer ∧
        reload.session.engine.store =
          { left.store with snapshot := verdict.snapshot } ∧
        reload.session.engine.notices =
          left.notices ++ [verdict.notice]) :
    reload.EndsInTime path name left isThere answer := by
  cases isThere with
  | false => exact ⟨h.1, h.2.1, h.2.2, rfl⟩
  | true =>
      cases answer with
      | error reason => exact ⟨h.1, h.2.1, h.2.2, rfl⟩
      | ok bytes =>
          unfold EndsInTime
          cases hParse : Document.parse name bytes with
          | ok document =>
              simp only [finding, Engine.Finding.verdict,
                hParse, if_true] at h ⊢
              exact ⟨h.1, h.2.1, h.2.2, rfl⟩
          | error error =>
              have hMalformed :=
                Engine.exists_malformed_of_parse_eq_error hParse
              have hLevel :
                  (Notice.failed error).level = .error := by
                rcases hMalformed with ⟨_, _, _, _, rfl⟩
                rfl
              simp only [finding, Engine.Finding.verdict,
                hParse, if_true] at h ⊢
              exact ⟨hMalformed, h.1, h.2.1, h.2.2, hLevel⟩

/-
  A reload is superseded exactly if a step that runs during
  its calls starts a request. It then changes nothing and
  tells the user nothing; else it ends by what the file system
  answers.
-/
theorem reload_under_interference
    (session : Session)
    (isThere : Bool)
    (reading : Session → Except String (List UInt8))
    (duringExists duringRead : List Step)
    (hCount :
      (session.interference isThere duringExists
        duringRead).length < UInt64.size) :
    let path := session.engine.configPath
    let name := session.engine.store.name
    let during :=
      duringExists ++ if isThere then duringRead else []
    let asked := (runSteps duringExists session.asking).1
    let left :=
      (session.finishing isThere (runSteps duringExists)
        (runSteps duringRead)).engine
    let reload :=
      session.reloadWith isThere reading
        (runSteps duringExists) (runSteps duringRead)
    let engine := reload.session.engine
    ((reload.outcome = .ok .superseded ∧
          engine.store = left.store ∧
            engine.notices = left.notices) ↔
        during.any (·.startsRequest path) = true) ∧
      (during.any (·.startsRequest path) = false →
        reload.EndsInTime path name left isThere
          (reading asked)) := by
  intro path name during asked left reload engine
  have hIff :=
    session.interference_eq_nil_iff isThere duringExists
      duringRead
  by_cases hStarts : during.any (·.startsRequest path) = true
  · have hRequests :
        session.interference isThere duringExists
          duringRead ≠ [] := by
      intro hNil
      rw [hIff.mp hNil] at hStarts
      simp at hStarts
    constructor
    · constructor
      · intro _
        exact hStarts
      · intro _
        exact reloadWith_of_overtaken hRequests hCount
    · intro hNone
      rw [hStarts] at hNone
      simp at hNone
  · have hNone : during.any (·.startsRequest path) = false := by
      simpa using hStarts
    have hInTime :=
      reloadWith_of_in_time reading (hIff.mpr hNone)
    constructor
    · constructor
      · intro hSuperseded
        have hVerdict := hInTime.1.symm.trans hSuperseded.1
        exact
          absurd hVerdict
            (Engine.Finding.answer_verdict_ne _ _ _)
      · intro hTrue
        exact absurd hTrue hStarts
    · intro _
      exact Reload.endsInTime_of_verdict hInTime

/-
  A deletion during the first call supersedes a reload. An
  older ticket that is used then does not, and the reload
  loads what it reads, rejects it, or finds nothing to read.
-/
theorem reload_under_interference_of_each :
    let json : List UInt8 := [0x7b, 0x7d]
    let malformed :=
      LoadError.malformed "a.json" "" ⟨0, 0⟩
        "EOF while parsing a value at line 1 column 0"
    let session :=
      ((Session.new (.new "a.json" .host) (.exact [])
        none).act .beginReload).1
    let deletion := [Step.mk (.act .storeDelete) [] []]
    let replay := [Step.mk (.act (.commit 0 json)) [] []]
    let left := fun isThere =>
      (session.finishing isThere (runSteps replay)
        (runSteps [])).engine
    let reload := fun isThere answer =>
      session.reloadWith isThere (fun _ => answer)
        (runSteps replay) (runSteps [])
    (session.interference true deletion []).length <
        UInt64.size ∧
      (session.reloadWith true (fun _ => .ok json)
          (runSteps deletion) (runSteps [])).outcome =
        .ok .superseded ∧
      (∀ isThere,
        (session.interference isThere replay []).length <
          UInt64.size) ∧
      (reload true (.ok json)).EndsWith (left true)
        (.ok (.applied ⟨.object []⟩)) (.loaded ⟨.object []⟩)
        (.loaded "a.json") .info ∧
      (reload true (.ok [])).EndsWith (left true)
        (.error malformed) .malformed (.failed malformed)
        .error ∧
      (reload true (.error "denied")).EndsWith (left true)
        (.error (.unreadable "a.json" "denied")) .absent
        (.failed (.unreadable "a.json" "denied")) .error ∧
      (reload false (.ok json)).EndsWith (left false)
        (.error (.missing "a.json")) .absent
        (.failed (.missing "a.json")) .info := by
  intro json malformed session deletion replay left reload
  have hDeletion :
      (session.interference true deletion []).length <
        UInt64.size := by
    decide
  have hReplay :
      ∀ isThere,
        (session.interference isThere replay []).length <
          UInt64.size := by
    decide
  have hInTime :
      ∀ isThere answer,
        (reload isThere answer).EndsInTime "a.json" "a.json"
          (left isThere) isThere answer := by
    intro isThere answer
    apply
      (reload_under_interference session isThere
        (fun _ => answer) replay [] (hReplay isThere)).2
    cases isThere <;> rfl
  have hLoads :
      Document.parse "a.json" json = .ok ⟨.object []⟩ :=
    Document.parse_emptyObject "a.json"
  have hFails :
      Document.parse "a.json" [] = .error malformed :=
    Document.parse_nil "a.json"
  have hLoaded := hInTime true (.ok json)
  have hMalformed := hInTime true (.ok [])
  unfold Reload.EndsInTime at hLoaded hMalformed
  simp only [hLoads, hFails, if_true] at hLoaded hMalformed
  refine
    ⟨hDeletion, ?_, hReplay, hLoaded, hMalformed.2,
      hInTime true (.error "denied"), hInTime false (.ok json)⟩
  exact
    ((reload_under_interference session true
      (fun _ => .ok json) deletion [] hDeletion).1.mpr rfl).1

end Session

end DottedRef
