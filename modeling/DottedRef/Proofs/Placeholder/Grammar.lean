import DottedRef.Placeholder.Occurrence
import DottedRef.Proofs.Text.Cuts

/-
  This file states the grammar of closed placeholders and
  proves that the reader of bodies accepts exactly the bodies
  of the grammar.

  Key definitions include:
    * `Placeholder.IsPlain`
    * `Placeholder.IsSegment`
    * `Placeholder.IsPath`
    * `Placeholder.written`
    * `Placeholder.Occurrence.StandsIn`

  Key theorems include:
    * `Placeholder.readBody?_complete`
    * `Placeholder.readBody?_sound`
    * `Placeholder.Occurrence.standsIn_iff`
-/

namespace DottedRef

namespace Placeholder

------------------------------------------------------------
-- Grammar
------------------------------------------------------------

/- The characters that may stand in a segment. -/
def IsPlain
    (c : Char) : Prop :=
  c ∉ ['$', '(', ')', '.']

/- A segment is a non-empty run of plain characters. -/
def IsSegment
    (segment : String) : Prop :=
  segment ≠ "" ∧ ∀ c ∈ segment.toList, IsPlain c

/- A path has at least one segment. -/
def IsPath
    (path : List String) : Prop :=
  path ≠ [] ∧ ∀ segment ∈ path, IsSegment segment

/- A path as it stands in a placeholder. -/
def body
    (path : List String) : List Char :=
  (".".intercalate path).toList

/- A placeholder as it stands in a text. -/
def written
    (path : List String) : String :=
  "$(mcp." ++ ".".intercalate path ++ ")"

/-
  An occurrence stands in a text if the part of the text
  between its ends is its path, written as a placeholder.
-/
def Occurrence.StandsIn
    (occurrence : Occurrence)
    (text : List Char) : Prop :=
  IsPath occurrence.path ∧
    Text.slice? occurrence.start occurrence.finish text =
      some (written occurrence.path).toList

/- A plain character is none that the reader stops at. -/
theorem isPlain_iff
    {c : Char} :
    IsPlain c ↔
      c ≠ ')' ∧ c ≠ '.' ∧ isBracket c = false := by
  unfold IsPlain isBracket
  simp only [List.mem_cons, List.not_mem_nil, or_false,
    Bool.or_eq_false_iff, decide_eq_false_iff_not]
  grind

/- What is written is an opener, a body and a parenthesis. -/
theorem written_toList
    (path : List String) :
    (written path).toList = opener ++ (body path ++ [')']) := by
  simp [written, body, opener]

@[simp] theorem body_singleton
    (segment : String) :
    body [segment] = segment.toList := by
  simp [body]

/- A point stands between a segment and the path after it. -/
theorem body_cons
    {segment : String}
    {path : List String}
    (hPath : path ≠ []) :
    body (segment :: path) =
      segment.toList ++ '.' :: body path := by
  simp [body, String.intercalate_cons_of_ne_nil hPath]

/- Plain characters make a segment. -/
theorem isSegment_ofList
    {segment : List Char}
    (hNonempty : segment ≠ [])
    (hPlain : ∀ c ∈ segment, IsPlain c) :
    IsSegment (String.ofList segment) := by
  refine ⟨by simpa using hNonempty, ?_⟩
  rwa [String.toList_ofList]

/- One segment makes a path. -/
theorem isPath_singleton
    {segment : String}
    (hSegment : IsSegment segment) :
    IsPath [segment] := by
  refine ⟨by simp, ?_⟩
  simpa using hSegment

/- A segment makes a longer path of a path. -/
theorem IsPath.cons
    {segment : String}
    {path : List String}
    (hPath : IsPath path)
    (hSegment : IsSegment segment) :
    IsPath (segment :: path) := by
  refine ⟨by simp, ?_⟩
  intro other hMem
  rcases List.mem_cons.mp hMem with rfl | hMem
  · exact hSegment
  · exact hPath.2 other hMem

------------------------------------------------------------
-- Bodies
------------------------------------------------------------

section Bodies

variable {start offset : Nat}
variable {path : List String}
variable {segment text : List Char}

/- Plain characters are read into the segment. -/
theorem readBody?_append
    {run : List Char}
    (hRun : ∀ c ∈ run, IsPlain c) :
    readBody? start offset path segment (run ++ text) =
      readBody? start (offset + Text.size run) path
        (segment ++ run) text := by
  induction run generalizing offset segment with
  | nil => simp [Text.size]
  | cons c run ih =>
      rcases isPlain_iff.mp (hRun c (by simp)) with
        ⟨hClose, hPoint, hBracket⟩
      have hRest : ∀ c ∈ run, IsPlain c := by
        intro d hMem
        exact hRun d (by simp [hMem])
      rw [List.cons_append, readBody?, if_neg hClose,
        if_neg hPoint, if_neg (by simp [hBracket]), ih hRest]
      simp [Text.size, Nat.add_assoc]

/- A parenthesis after a segment ends the body. -/
theorem readBody?_close
    (hSegment : segment ≠ []) :
    readBody? start offset path segment (')' :: text) =
      some ⟨start, offset + 1,
        path ++ [String.ofList segment]⟩ := by
  rw [readBody?, if_pos rfl, if_neg hSegment]
  rfl

/- A point after a segment starts the next one. -/
theorem readBody?_point
    (hSegment : segment ≠ []) :
    readBody? start offset path segment ('.' :: text) =
      readBody? start (offset + 1)
        (path ++ [String.ofList segment]) [] text := by
  rw [readBody?, if_neg (by decide), if_pos rfl,
    if_neg hSegment]
  rfl

/-
  Every body of the grammar is read, with its segments and
  the offset past its parenthesis.
-/
theorem readBody?_complete
    {more : List String}
    (hMore : IsPath more) :
    readBody? start offset path []
        (body more ++ ')' :: text) =
      some ⟨start, offset + Text.size (body more) + 1,
        path ++ more⟩ := by
  rcases hMore with ⟨hNonempty, hSegments⟩
  induction more generalizing offset path with
  | nil => exact absurd rfl hNonempty
  | cons first more ih =>
      rcases hSegments first (by simp) with ⟨hFirst, hPlain⟩
      have hChars : first.toList ≠ [] := by
        simpa using hFirst
      cases more with
      | nil =>
          rw [body_singleton, readBody?_append hPlain,
            List.nil_append, readBody?_close hChars,
            String.ofList_toList]
      | cons next more =>
          have hNext :
              ∀ segment ∈ next :: more, IsSegment segment := by
            intro segment hMem
            exact
              hSegments segment (List.mem_cons_of_mem _ hMem)
          rw [body_cons (by simp), List.append_assoc,
            readBody?_append hPlain, List.nil_append,
            List.cons_append, readBody?_point hChars,
            ih (by simp) hNext, String.ofList_toList]
          have hPoint : ('.' : Char).utf8Size = 1 := rfl
          simp only [Text.size_append, Text.size, hPoint,
            List.append_assoc, List.singleton_append,
            Option.some.injEq, Occurrence.mk.injEq, true_and,
            and_true]
          omega

/-
  Every body that is read is one of the grammar: what has been
  read of a segment and the text together start with a body
  and a parenthesis.
-/
theorem readBody?_sound
    {occurrence : Occurrence}
    (hSegment : ∀ c ∈ segment, IsPlain c)
    (h : readBody? start offset path segment text =
      some occurrence) :
    ∃ more after, IsPath more ∧
      segment ++ text = body more ++ ')' :: after ∧
      occurrence.start = start ∧
      occurrence.path = path ++ more ∧
      occurrence.finish + Text.size segment =
        offset + Text.size (body more) + 1 := by
  induction text generalizing offset path segment with
  | nil => simp [readBody?] at h
  | cons c text ih =>
      rw [readBody?] at h
      by_cases hClose : c = ')'
      · subst hClose
        rw [if_pos rfl] at h
        by_cases hEmpty : segment = []
        · simp [hEmpty] at h
        · rw [if_neg hEmpty, Option.some.injEq] at h
          subst h
          refine
            ⟨[String.ofList segment], text,
              isPath_singleton (isSegment_ofList hEmpty hSegment),
              by simp, rfl, rfl, ?_⟩
          have hSize : (')' : Char).utf8Size = 1 := rfl
          simp only [body_singleton, String.toList_ofList,
            hSize]
          omega
      · rw [if_neg hClose] at h
        by_cases hPoint : c = '.'
        · subst hPoint
          rw [if_pos rfl] at h
          by_cases hEmpty : segment = []
          · simp [hEmpty] at h
          · rw [if_neg hEmpty] at h
            rcases ih (by simp) h with
              ⟨more, after, hMore, hText, hStart, hPath,
                hFinish⟩
            refine
              ⟨String.ofList segment :: more, after,
                hMore.cons (isSegment_ofList hEmpty hSegment),
                ?_, hStart, by simp [hPath], ?_⟩
            · rw [body_cons hMore.1, String.toList_ofList,
                List.append_assoc, List.cons_append, ← hText,
                List.nil_append]
            · have hSize : ('.' : Char).utf8Size = 1 := rfl
              rw [body_cons hMore.1, String.toList_ofList,
                Text.size_append]
              simp only [Text.size, hSize] at hFinish ⊢
              omega
        · rw [if_neg hPoint] at h
          by_cases hBracket : isBracket c = true
          · simp [hBracket] at h
          · rw [if_neg hBracket] at h
            have hPlain :
                ∀ d ∈ segment ++ [c], IsPlain d := by
              intro d hMem
              rcases List.mem_append.mp hMem with hMem | hMem
              · exact hSegment d hMem
              · rw [List.mem_singleton.mp hMem]
                exact
                  isPlain_iff.mpr
                    ⟨hClose, hPoint,
                      Bool.eq_false_iff.mpr hBracket⟩
            rcases ih hPlain h with
              ⟨more, after, hMore, hText, hStart, hPath,
                hFinish⟩
            refine
              ⟨more, after, hMore, by simpa using hText,
                hStart, hPath, ?_⟩
            simp only [Text.size_append, Text.size] at hFinish
            omega

end Bodies

------------------------------------------------------------
-- Occurrences in a Text
------------------------------------------------------------

/- An opener takes up as many bytes as it is said to. -/
theorem size_opener :
    Text.size opener = openerSize := by
  decide

/- An opener is not empty. -/
theorem opener_ne_nil :
    opener ≠ [] := by
  decide

/- An occurrence stands where its opener and its body do. -/
theorem Occurrence.standsIn_iff
    {occurrence : Occurrence}
    {text : List Char} :
    occurrence.StandsIn text ↔
      IsPath occurrence.path ∧ ∃ before after,
        before ++ (opener ++
            (body occurrence.path ++ ')' :: after)) = text ∧
          Text.size before = occurrence.start ∧
          occurrence.start + openerSize +
              Text.size (body occurrence.path) + 1 =
            occurrence.finish := by
  have hSize :
      Text.size (written occurrence.path).toList =
        openerSize + Text.size (body occurrence.path) + 1 := by
    rw [written_toList, Text.size_append, Text.size_append,
      size_opener]
    rfl
  unfold StandsIn
  rw [Text.slice?_eq_some_iff]
  constructor
  · rintro ⟨hPath, before, after, hText, hStart, hFinish⟩
    refine ⟨hPath, before, after, ?_, hStart, by omega⟩
    rw [← hText, written_toList]
    simp
  · rintro ⟨hPath, before, after, hText, hStart, hFinish⟩
    refine ⟨hPath, before, after, ?_, hStart, by omega⟩
    rw [← hText, written_toList]
    simp

/- A body holds plain characters and points. -/
theorem isPlain_of_mem_body
    {path : List String}
    {c : Char}
    (hSegments : ∀ segment ∈ path, IsSegment segment)
    (hMem : c ∈ body path) :
    IsPlain c ∨ c = '.' := by
  induction path with
  | nil => simp [body] at hMem
  | cons segment path ih =>
      have hSegment := hSegments segment (by simp)
      by_cases hPath : path = []
      · subst hPath
        rw [body_singleton] at hMem
        exact Or.inl (hSegment.2 c hMem)
      · rw [body_cons hPath, List.mem_append,
          List.mem_cons] at hMem
        rcases hMem with hMem | hMem | hMem
        · exact Or.inl (hSegment.2 c hMem)
        · exact Or.inr hMem
        · apply ih _ hMem
          intro other hOther
          exact hSegments other (List.mem_cons_of_mem _ hOther)

/- No opener starts within a placeholder past its start. -/
theorem dollar_not_mem_written
    {path : List String}
    (hPath : IsPath path) :
    '$' ∉ (written path).toList.tail := by
  rw [written_toList]
  intro hMem
  have hBody : '$' ∈ body path := by
    simpa [opener] using hMem
  rcases isPlain_of_mem_body hPath.2 hBody with
    hPlain | hPoint
  · exact hPlain (by simp)
  · exact absurd hPoint (by decide)

/-
  An opener that starts past the start of a part without
  another dollar sign starts past its end.
-/
theorem le_of_dollar_not_mem
    {before part after before' after' : List Char}
    (hText :
      before ++ (part ++ after) =
        before' ++ (opener ++ after'))
    (hPart : '$' ∉ part.tail)
    (hStart : Text.size before < Text.size before') :
    Text.size before + Text.size part ≤ Text.size before' := by
  apply Nat.le_of_not_lt
  intro hOverlap
  rcases Text.exists_between hText (by omega) with
    ⟨middle, hMiddle, hRest⟩
  have hSize := Text.size_append before middle
  rw [← hMiddle] at hSize
  rcases Text.exists_between hRest.symm (by omega) with
    ⟨tail, hPartEq, hTail⟩
  have hTailSize := Text.size_append middle tail
  rw [← hPartEq] at hTailSize
  have hDollar : '$' ∈ tail := by
    cases tail with
    | nil =>
        simp only [Text.size] at hTailSize
        omega
    | cons c tail =>
        have hHead : '$' = c := by
          simpa [opener] using congrArg List.head? hTail
        rw [hHead]
        exact List.mem_cons_self
  have hNonempty : middle ≠ [] := by
    intro hNil
    rw [hNil, Text.size] at hSize
    omega
  apply hPart
  rw [hPartEq, List.tail_append_of_ne_nil hNonempty]
  exact List.mem_append_right _ hDollar

/- Of two occurrences in a text, one ends before the other. -/
theorem Occurrence.StandsIn.finish_le_start
    {text : List Char}
    {first second : Occurrence}
    (hFirst : first.StandsIn text)
    (hSecond : second.StandsIn text)
    (hStart : first.start < second.start) :
    first.finish ≤ second.start := by
  rcases Text.slice?_eq_some_iff.mp hFirst.2 with
    ⟨before, after, hText, hBefore, hFinish⟩
  rcases standsIn_iff.mp hSecond with
    ⟨-, before', after', hText', hBefore', -⟩
  have hSame :
      before ++ ((written first.path).toList ++ after) =
        before' ++ (opener ++
          (body second.path ++ ')' :: after')) := by
    rw [← List.append_assoc, hText, hText']
  rw [← hFinish, ← hBefore']
  apply le_of_dollar_not_mem hSame
  · exact dollar_not_mem_written hFirst.1
  · omega

end Placeholder

end DottedRef
