import DottedRef.Proofs.Placeholder.Draft

/-
  This file proves that the search for placeholders only reads
  a text from usable offsets, that every attempt which does not
  end the search moves it on, and that the search therefore
  ends. Looking at an offset and looking for a draft never cut
  a text where it cannot be cut either.

  Key definitions include:
    * `Placeholder.Attempt.resume`
    * `Placeholder.Attempt.goesOn`
    * `Placeholder.Attempt.found?`
    * `Placeholder.Reaches`
    * `Placeholder.strictDraftAt?`

  Key theorems include:
    * `Placeholder.isOffset_body`
    * `Placeholder.exists_attempt`
    * `Placeholder.resume_spec`
    * `Placeholder.Reaches.isOffset`
    * `Placeholder.Reaches.countP_le`
    * `Placeholder.Reaches.exists_finished`
    * `Placeholder.strictDraftAt?_eq`
    * `Placeholder.search_stays_in_bounds`
-/

namespace DottedRef

namespace Placeholder

------------------------------------------------------------
-- Attempts
------------------------------------------------------------

namespace Attempt

/-
  The offset at which a search goes on after an attempt, in a
  text of the given size. A search that has ended is left at
  the end of the text.
-/
def resume
    (size : Nat) : Attempt → Nat
  | finished => size
  | missed start => start + 1
  | found occurrence => occurrence.finish

/- Whether a search goes on after an attempt. -/
def goesOn : Attempt → Bool
  | finished => false
  | missed _ => true
  | found _ => true

/- The placeholder that an attempt leads to. -/
def found? : Attempt → Option Occurrence
  | finished => none
  | missed _ => none
  | found occurrence => some occurrence

end Attempt

/- A text can be cut behind an opener that is found in it. -/
theorem isOffset_body
    {text : List Char}
    {position : Nat}
    {rest : List Char}
    {index : Nat}
    (hRest : Text.after? position text = some rest)
    (hIndex : Text.firstIndexOf? opener rest = some index) :
    Text.isOffset (position + index + openerSize) text := by
  rcases Text.after?_eq_some_iff.mp hRest with
    ⟨first, rfl, rfl⟩
  rcases Text.exists_of_firstIndexOf? hIndex with
    ⟨skipped, after, rfl, rfl⟩
  refine
    Text.isOffset_iff.mpr
      ⟨first ++ skipped ++ opener, after, by simp, ?_⟩
  simp only [Text.size_append, size_opener]

section Steps

variable {text : List Char}
variable {position : Nat}
variable (hOffset : Text.isOffset position text)

include hOffset

/- From a usable offset on, the rest of a text can be read. -/
theorem exists_after? :
    ∃ rest, Text.after? position text = some rest := by
  apply Option.isSome_iff_exists.mp
  rwa [Text.isSome_after?]

/- From a usable offset on, an attempt can be made. -/
theorem exists_attempt :
    ∃ attempt, attempt? text position = some attempt := by
  have hSpec := attempt?_spec hOffset
  cases hAttempt : attempt? text position with
  | none =>
      rw [hAttempt] at hSpec
      exact hSpec.elim
  | some attempt => exact ⟨attempt, rfl⟩

/-
  An attempt leaves the search at a usable offset, which is a
  later one unless the search has ended.
-/
theorem resume_spec
    {attempt : Attempt}
    (hAttempt : attempt? text position = some attempt) :
    Text.isOffset (attempt.resume (Text.size text)) text ∧
      position ≤ attempt.resume (Text.size text) ∧
      (attempt.goesOn →
        position < attempt.resume (Text.size text)) := by
  have hSpec := attempt?_spec hOffset
  cases attempt with
  | finished =>
      have hEnd : Text.isOffset (Text.size text) text :=
        Text.isOffset_iff.mpr
          ⟨text, [], List.append_nil text, rfl⟩
      exact
        ⟨hEnd, Text.le_size_of_isOffset hOffset,
          by simp [Attempt.goesOn]⟩
  | missed start =>
      simp only [hAttempt] at hSpec
      rcases hSpec with ⟨hStart, hNext, -⟩
      have hLt : position < start + 1 := by
        omega
      exact ⟨hNext, Nat.le_of_lt hLt, fun _ => hLt⟩
  | found occurrence =>
      simp only [hAttempt] at hSpec
      rcases hSpec with ⟨hStart, hStands, -⟩
      have hLt : position < occurrence.finish :=
        Nat.lt_of_le_of_lt hStart hStands.start_lt_finish
      exact
        ⟨hStands.isOffset_finish, Nat.le_of_lt hLt,
          fun _ => hLt⟩

end Steps

------------------------------------------------------------
-- Searches
------------------------------------------------------------

/-
  A search from the start of a text has made some attempts and
  stands at an offset. It may be asked on after it has ended.
-/
inductive Reaches
    (text : List Char) : List Attempt → Nat → Prop
  | start : Reaches text [] 0
  | step
      {attempts : List Attempt}
      {position : Nat}
      {attempt : Attempt}
      (hReaches : Reaches text attempts position)
      (hAttempt : attempt? text position = some attempt) :
      Reaches text (attempts ++ [attempt])
        (attempt.resume (Text.size text))

namespace Reaches

variable {text : List Char}
variable {attempts : List Attempt}
variable {position : Nat}

/- A search stands at usable offsets only. -/
theorem isOffset
    (h : Reaches text attempts position) :
    Text.isOffset position text := by
  induction h with
  | start => exact isOffset_zero text
  | step _ hAttempt ih => exact (resume_spec ih hAttempt).1

/-
  A search has come as far as it has made attempts that did
  not end it.
-/
theorem countP_le
    (h : Reaches text attempts position) :
    attempts.countP Attempt.goesOn ≤ position := by
  induction h with
  | start => simp
  | @step attempts position attempt hReaches hAttempt ih =>
      rcases resume_spec hReaches.isOffset hAttempt with
        ⟨-, hLe, hLt⟩
      by_cases hOn : attempt.goesOn
      · have hNext := hLt hOn
        simp only [List.countP_append, List.countP_singleton,
          hOn, if_true]
        omega
      · simp only [List.countP_append, List.countP_singleton,
          hOn]
        exact Nat.le_trans ih hLe

/-
  A search that goes on ends, and its attempts lead to the
  placeholders of the scan.
-/
theorem exists_finished
    (h : Reaches text attempts position) :
    ∃ more last,
      Reaches text (attempts ++ more) last ∧
        more.all Attempt.goesOn ∧
        attempt? text last = some .finished ∧
        scanFrom text position =
          more.filterMap Attempt.found? := by
  fun_induction scanFrom text position generalizing attempts with
  | case1 position hNone =>
      -- A search never stands where the text cannot be cut.
      rcases exists_attempt h.isOffset with ⟨attempt, hSome⟩
      rw [hNone] at hSome
      simp at hSome
  | case2 position hAttempt =>
      have hHere : Reaches text (attempts ++ []) position := by
        simpa using h
      exact ⟨[], position, hHere, rfl, hAttempt, rfl⟩
  | case3 position start hAttempt ih =>
      rcases ih (h.step hAttempt) with
        ⟨more, last, hLast, hMore, hEnd, hScan⟩
      exact
        ⟨.missed start :: more, last, by simpa using hLast,
          by simpa [Attempt.goesOn] using hMore, hEnd,
          by simpa [List.filterMap_cons, Attempt.found?] using
            hScan⟩
  | case4 position occurrence hAttempt ih =>
      rcases ih (h.step hAttempt) with
        ⟨more, last, hLast, hMore, hEnd, hScan⟩
      exact
        ⟨.found occurrence :: more, last, by simpa using hLast,
          by simpa [Attempt.goesOn] using hMore, hEnd,
          by simpa [Attempt.found?] using hScan⟩

end Reaches

------------------------------------------------------------
-- Drafts
------------------------------------------------------------

/-
  The placeholder being typed at a caret. There is no result,
  rather than no draft, if the text before the caret or behind
  its last opener cannot be cut off.
-/
def strictDraftAt?
    (text : String)
    (caret : Nat) : Option (Option Draft) :=
  if Text.isOffset caret text.toList then do
    let head ← Text.before? caret text.toList
    match Text.lastIndexOf? opener head with
    | none => return none
    | some start =>
        let typed ← Text.after? (start + openerSize) head
        if typed.any isBracket then
          return none
        else
          return some
            ⟨start, (segments typed).map String.ofList⟩
  else
    return none

/- The text can always be cut where a draft is looked for. -/
theorem strictDraftAt?_eq
    (text : String)
    (caret : Nat) :
    strictDraftAt? text caret = some (draftAt? text caret) := by
  have hUsable := Text.isSome_before? caret text.toList
  unfold strictDraftAt? draftAt?
  cases hHead : Text.before? caret text.toList with
  | none => simp [← hUsable, hHead]
  | some head =>
      simp only [← hUsable, hHead, Option.isSome_some, if_true,
        Option.bind_eq_bind, Option.bind_some]
      cases hStart : Text.lastIndexOf? opener head with
      | none => rfl
      | some start =>
          rcases Text.exists_of_lastIndexOf? hStart with
            ⟨before, typed, hOpener, rfl⟩
          have hTyped :
              Text.after? (Text.size before + openerSize) head =
                some typed := by
            apply Text.after?_eq_some_iff.mpr
            refine ⟨before ++ opener, hOpener, ?_⟩
            rw [Text.size_append, size_opener]
          simp only [hTyped, Option.bind_some]
          split <;> rfl

------------------------------------------------------------
-- Bounds
------------------------------------------------------------

/-
  A search only reads a text from usable offsets, at which an
  attempt can be made. Each attempt that does not end the
  search moves it on, so there are no more of them than bytes,
  and a search that is asked on ends with the placeholders of
  the scan. What is found at an offset comes from that search
  alone, and a draft is looked for without a cut that fails,
  whether or not the offset or the caret is usable.
-/
theorem search_stays_in_bounds
    (text : String) :
    (∀ attempts position,
        Reaches text.toList attempts position →
          Text.isOffset position text.toList ∧
          position ≤ Text.size text.toList ∧
          attempts.countP Attempt.goesOn ≤ position ∧
          (∃ rest,
            Text.after? position text.toList = some rest ∧
            ∀ index,
              Text.firstIndexOf? opener rest = some index →
                Text.isOffset (position + index + openerSize)
                  text.toList) ∧
          ∃ attempt,
            attempt? text.toList position = some attempt ∧
            (attempt.goesOn →
              position <
                attempt.resume (Text.size text.toList))) ∧
      (∃ attempts last,
        Reaches text.toList attempts last ∧
        attempts.all Attempt.goesOn ∧
        attempts.length ≤ Text.size text.toList ∧
        attempt? text.toList last = some .finished ∧
        scan text = attempts.filterMap Attempt.found? ∧
        ∀ offset,
          occurrenceAt? text offset =
            if Text.isOffset offset text.toList then
              ((attempts.filterMap Attempt.found?).takeWhile
                (·.start ≤ offset)).find? (·.touches offset)
            else
              none) ∧
      ∀ caret,
        strictDraftAt? text caret =
          some (draftAt? text caret) := by
  refine ⟨?_, ?_, strictDraftAt?_eq text⟩
  · intro attempts position hReaches
    have hOffset := hReaches.isOffset
    rcases exists_after? hOffset with ⟨rest, hRest⟩
    rcases exists_attempt hOffset with ⟨attempt, hAttempt⟩
    exact
      ⟨hOffset, Text.le_size_of_isOffset hOffset,
        hReaches.countP_le,
        ⟨rest, hRest, fun _ => isOffset_body hRest⟩,
        attempt, hAttempt, (resume_spec hOffset hAttempt).2.2⟩
  · rcases Reaches.start.exists_finished with
      ⟨attempts, last, hLast, hOn, hEnd, hScan⟩
    have hCount :
        attempts.countP Attempt.goesOn = attempts.length :=
      List.countP_eq_length.mpr (List.all_eq_true.mp hOn)
    have hLength : attempts.length ≤ Text.size text.toList :=
      calc
        attempts.length
            = attempts.countP Attempt.goesOn := hCount.symm
        _ ≤ last := hLast.countP_le
        _ ≤ Text.size text.toList :=
          Text.le_size_of_isOffset hLast.isOffset
    refine
      ⟨attempts, last, hLast, hOn, hLength, hEnd, hScan, ?_⟩
    intro offset
    rw [occurrenceAt?, scan, hScan]

/-
  An opener behind an accent is missed, as a second one comes
  before its closing parenthesis, and the search goes on right
  after its first character. No draft is looked for within the
  accent.
-/
theorem search_stays_in_bounds_of_accent :
    let text := "é$(mcp.é$(mcp.b)"
    Reaches text.toList [.missed 2] 3 ∧
      Text.isOffset 3 text.toList ∧
      (∃ attempt,
        attempt? text.toList 3 = some attempt ∧
        (attempt.goesOn →
          3 < attempt.resume (Text.size text.toList))) ∧
      strictDraftAt? text 1 = some none := by
  intro text
  rcases search_stays_in_bounds text with
    ⟨hSearch, -, hDraft⟩
  have hMissed :
      attempt? text.toList 0 = some (.missed 2) := by
    decide
  have hReaches : Reaches text.toList [.missed 2] 3 :=
    Reaches.start.step hMissed
  rcases hSearch [.missed 2] 3 hReaches with
    ⟨hOffset, -, -, -, hAttempt⟩
  refine ⟨hReaches, hOffset, hAttempt, ?_⟩
  rw [hDraft]
  decide

end Placeholder

end DottedRef
