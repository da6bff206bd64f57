import DottedRef.Placeholder.Draft
import DottedRef.Proofs.Placeholder.Scan
import DottedRef.Proofs.Text.Parts

/-
  This file states the grammar of placeholders that are still
  being typed and proves that it agrees with the grammar of
  closed ones: a draft without empty segments is a placeholder
  that lacks its parenthesis, and every caret within the body
  of a placeholder ends a draft of it.

  Key definitions include:
    * `Placeholder.stemPrefix`
    * `Placeholder.Draft.EndsAt`

  Key theorems include:
    * `Placeholder.draftAt?_eq_some_iff`
    * `Placeholder.Draft.EndsAt.before?_stem`
    * `Placeholder.Occurrence.standsIn_close_iff`
    * `Placeholder.mem_scan_close_iff`
    * `Placeholder.Draft.EndsAt.exists_occurrence`
    * `Placeholder.Occurrence.StandsIn.exists_draft`
    * `Placeholder.draft_scan_agreement`
-/

namespace DottedRef

namespace Placeholder

------------------------------------------------------------
-- Segments
------------------------------------------------------------

/- A body holds no brackets. -/
theorem isBracket_of_mem_body
    {path : List String}
    {c : Char}
    (hPath : IsPath path)
    (hMem : c ∈ body path) :
    isBracket c = false := by
  rcases isPlain_of_mem_body hPath.2 hMem with
    hPlain | hPoint
  · exact (isPlain_iff.mp hPlain).2.2
  · rw [hPoint]
    decide

/- The segments of a body are its path. -/
theorem segments_body
    {path : List String}
    (hPath : IsPath path) :
    segments (body path) = path.map String.toList := by
  have hParts :
      ∀ part ∈ path.map String.toList, '.' ∉ part := by
    intro part hPart hPoint
    rcases List.mem_map.mp hPart with ⟨segment, hMem, rfl⟩
    have hPlain := (hPath.2 segment hMem).2 '.' hPoint
    exact (isPlain_iff.mp hPlain).2.1 rfl
  unfold segments body
  rw [String.toList_intercalate]
  apply Text.split_intercalate hParts
  simpa using hPath.1

/-
  The segments of a first part of a body are those of the path,
  but for the last one, which may be cut off.
-/
theorem exists_segments_of_body_eq
    {path : List String}
    {first rest : List Char}
    (hPath : IsPath path)
    (hBody : body path = first ++ rest) :
    ∃ complete half whole others,
      (segments first).map String.ofList =
          complete ++ [half] ∧
        path = complete ++ whole :: others ∧
        half.toList <+: whole.toList := by
  rcases Text.exists_split_append '.' first rest with
    ⟨parts, half, other, more, hFirst, -, hBoth⟩
  have hSegments := segments_body hPath
  rw [hBody, segments, hBoth] at hSegments
  have hMap := congrArg (List.map String.ofList) hSegments
  rw [List.map_map, String.ofList_comp_toList, List.map_id,
    List.map_append, List.map_cons] at hMap
  refine
    ⟨parts.map String.ofList, String.ofList half,
      String.ofList (half ++ other), more.map String.ofList,
      ?_, hMap.symm, ?_⟩
  · rw [segments, hFirst, List.map_append, List.map_singleton]
  · rw [String.toList_ofList, String.toList_ofList]
    exact List.prefix_append ..

/- What is typed is the body of its segments. -/
theorem body_segments
    (typed : List Char) :
    body ((segments typed).map String.ofList) = typed := by
  unfold segments body
  rw [String.toList_intercalate, List.map_map,
    String.toList_comp_ofList, List.map_id]
  exact Text.intercalate_split '.' typed

/- The characters of what is typed without brackets are plain. -/
theorem isPlain_of_mem_segments
    {typed : List Char}
    {segment : String}
    {c : Char}
    (hTyped : ∀ c ∈ typed, isBracket c = false)
    (hSegment :
      segment ∈ (segments typed).map String.ofList)
    (hMem : c ∈ segment.toList) :
    IsPlain c := by
  rcases List.mem_map.mp hSegment with ⟨part, hPart, rfl⟩
  rw [String.toList_ofList] at hMem
  rcases Text.mem_of_mem_split hPart hMem with
    ⟨hText, hPoint⟩
  have hBracket := hTyped c hText
  apply isPlain_iff.mpr
  refine ⟨?_, hPoint, hBracket⟩
  rintro rfl
  exact absurd hBracket (by decide)

/- Segments as they stand before one that is being typed. -/
def stemPrefix
    (path : List String) : List Char :=
  path.flatMap fun segment => segment.toList ++ ['.']

/- The last segment of a body stands behind the others. -/
theorem body_concat
    (path : List String)
    (segment : String) :
    body (path ++ [segment]) =
      stemPrefix path ++ segment.toList := by
  induction path with
  | nil => simp [stemPrefix]
  | cons first path ih =>
      rw [List.cons_append, body_cons (by simp), ih]
      simp [stemPrefix]

------------------------------------------------------------
-- Drafts in a Text
------------------------------------------------------------

/- The last segment of a draft is the one being typed. -/
theorem Draft.parts_of_path_eq
    {draft : Draft}
    {path : List String}
    {segment : String}
    (h : draft.path = path ++ [segment]) :
    draft.parentPath = path ∧ draft.stem = segment := by
  unfold parentPath stem
  rw [h, List.dropLast_concat, List.getLast?_concat]
  exact ⟨rfl, rfl⟩

/-
  A draft ends at a caret if an opener and the draft's path
  stand before the caret, with no bracket after the opener.
-/
def Draft.EndsAt
    (draft : Draft)
    (caret : Nat)
    (text : List Char) : Prop :=
  ∃ before typed after,
    before ++ (opener ++ typed) ++ after = text ∧
      Text.size before = draft.start ∧
      draft.start + openerSize + Text.size typed = caret ∧
      (∀ c ∈ typed, isBracket c = false) ∧
      draft.path = (segments typed).map String.ofList

/- No opener starts after the last one that is typed on. -/
theorem lastIndexOf?_opener
    {before typed : List Char}
    (hTyped : ∀ c ∈ typed, isBracket c = false) :
    Text.lastIndexOf? opener (before ++ opener ++ typed) =
      some (Text.size before) := by
  rcases Text.le_lastIndexOf? opener_ne_nil with
    ⟨index, hLe, hIndex⟩
  rcases Text.exists_of_lastIndexOf? hIndex with
    ⟨before', after', hText, rfl⟩
  rw [hIndex, Option.some.injEq]
  apply Nat.le_antisymm ?_ hLe
  apply Nat.le_of_not_lt
  intro hLater
  have hDollar : '$' ∉ (opener ++ typed).tail := by
    intro hMem
    have hMem : '$' ∈ typed := by
      simpa [opener] using hMem
    exact absurd (hTyped '$' hMem) (by decide)
  have hSame :
      before ++ (opener ++ typed ++ []) =
        before' ++ (opener ++ after') := by
    rw [List.append_nil, ← List.append_assoc,
      ← List.append_assoc, hText]
  have hPast := le_of_dollar_not_mem hSame hDollar hLater
  have hSize := congrArg Text.size hText
  simp only [Text.size_append, size_opener] at hPast hSize
  unfold openerSize at hPast hSize
  omega

/- A draft is found at a caret if it ends there. -/
theorem draftAt?_eq_some_iff
    {text : String}
    {caret : Nat}
    {draft : Draft} :
    draftAt? text caret = some draft ↔
      draft.EndsAt caret text.toList := by
  unfold draftAt?
  constructor
  · intro h
    rcases Option.bind_eq_some_iff.mp h with
      ⟨head, hHead, h⟩
    rcases Option.bind_eq_some_iff.mp h with
      ⟨start, hStart, h⟩
    rcases Option.bind_eq_some_iff.mp h with
      ⟨typed, hTyped, h⟩
    rcases Text.before?_eq_some_iff.mp hHead with
      ⟨⟨after, hText⟩, hCaret⟩
    rcases Text.exists_of_lastIndexOf? hStart with
      ⟨before, rest, hOpener, hBefore⟩
    rcases Text.after?_eq_some_iff.mp hTyped with
      ⟨first, hFirst, hSize⟩
    have hCut : first = before ++ opener ∧ typed = rest := by
      apply Text.append_inj (hFirst.trans hOpener.symm)
      rw [hSize, Text.size_append, size_opener, hBefore]
    rcases hCut with ⟨rfl, rfl⟩
    split at h
    · simp at h
    · rename_i hBrackets
      rw [Option.some.injEq] at h
      subst h
      refine ⟨before, typed, after, ?_, hBefore, ?_, ?_, rfl⟩
      · rw [← hText, ← hFirst, List.append_assoc before opener]
      · rw [← hCaret, ← hFirst, Text.size_append, hSize]
      · simpa using hBrackets
  · rintro ⟨before, typed, after, hText, hStart, hCaret,
      hTyped, hPath⟩
    have hSize :
        Text.size (before ++ (opener ++ typed)) = caret := by
      rw [Text.size_append, Text.size_append, size_opener]
      omega
    have hHead :
        Text.before? caret text.toList =
          some (before ++ (opener ++ typed)) :=
      Text.before?_eq_some_iff.mpr ⟨⟨after, hText⟩, hSize⟩
    have hLast :
        Text.lastIndexOf? opener
            (before ++ (opener ++ typed)) =
          some draft.start := by
      rw [← List.append_assoc, lastIndexOf?_opener hTyped,
        hStart]
    have hRest :
        Text.after? (draft.start + openerSize)
            (before ++ (opener ++ typed)) = some typed := by
      apply Text.after?_eq_some_iff.mpr
      refine ⟨before ++ opener, List.append_assoc .., ?_⟩
      rw [Text.size_append, size_opener, hStart]
    have hBrackets : ¬ typed.any isBracket = true := by
      simpa using hTyped
    simp only [hHead, hLast, hRest, Option.bind_eq_bind,
      Option.bind_some, if_neg hBrackets, ← hPath]

/- What comes after a caret plays no part in a draft. -/
theorem Draft.endsAt_append_iff
    {draft : Draft}
    {head tail : List Char} :
    draft.EndsAt (Text.size head) (head ++ tail) ↔
      draft.EndsAt (Text.size head) head := by
  constructor
  · rintro ⟨before, typed, after, hText, hStart, hCaret,
      hTyped, hPath⟩
    have hHead : before ++ (opener ++ typed) = head := by
      apply (Text.append_inj hText ?_).1
      rw [Text.size_append, Text.size_append, size_opener]
      omega
    exact
      ⟨before, typed, [], by rw [List.append_nil, hHead],
        hStart, hCaret, hTyped, hPath⟩
  · rintro ⟨before, typed, after, rfl, hStart, hCaret,
      hTyped, hPath⟩
    exact
      ⟨before, typed, after ++ tail,
        (List.append_assoc ..).symm, hStart, hCaret, hTyped,
        hPath⟩

/-
  Before the segment being typed stand the opener of a draft
  and its complete segments.
-/
theorem Draft.EndsAt.before?_stem
    {draft : Draft}
    {caret : Nat}
    {text : List Char}
    (h : draft.EndsAt caret text) :
    ∃ before, Text.size before = draft.start ∧
      Text.before? (caret - Text.size draft.stem.toList) text =
        some
          (before ++ opener ++ stemPrefix draft.parentPath) := by
  rcases h with
    ⟨before, typed, after, hText, hStart, hCaret, -, hPath⟩
  have hTyped :
      stemPrefix draft.parentPath ++ draft.stem.toList =
        typed := by
    rcases List.eq_nil_or_concat draft.path with
      hNil | ⟨path, segment, hConcat⟩
    · rw [hPath, List.map_eq_nil_iff] at hNil
      exact absurd hNil (Text.split_ne_nil '.' typed)
    · rw [List.concat_eq_append] at hConcat
      rcases parts_of_path_eq hConcat with ⟨hParent, hStem⟩
      rw [hParent, hStem, ← body_concat, ← hConcat, hPath,
        body_segments]
  refine ⟨before, hStart, ?_⟩
  apply Text.before?_eq_some_iff.mpr
  refine ⟨⟨draft.stem.toList ++ after, ?_⟩, ?_⟩
  · rw [← hText, ← hTyped]
    simp only [List.append_assoc]
  · have hSize := congrArg Text.size hTyped
    rw [Text.size_append] at hSize
    rw [Text.size_append, Text.size_append, size_opener]
    omega

/- The characters of the segments of a draft are plain. -/
theorem Draft.EndsAt.isPlain_of_mem
    {draft : Draft}
    {caret : Nat}
    {text : List Char}
    {segment : String}
    (h : draft.EndsAt caret text)
    (hMem : segment ∈ draft.path) :
    ∀ c ∈ segment.toList, IsPlain c := by
  rcases h with ⟨-, typed, -, -, -, -, hTyped, hPath⟩
  intro c hChar
  rw [hPath] at hMem
  exact isPlain_of_mem_segments hTyped hMem hChar

/- A draft without empty segments makes a path. -/
theorem Draft.EndsAt.isPath
    {draft : Draft}
    {caret : Nat}
    {text : List Char}
    (h : draft.EndsAt caret text)
    (hSegments : ∀ segment ∈ draft.path, segment ≠ "") :
    IsPath draft.path := by
  constructor
  · rcases h with ⟨-, typed, -, -, -, -, -, hPath⟩
    rw [hPath]
    simpa [segments] using Text.split_ne_nil '.' typed
  · intro segment hMem
    exact ⟨hSegments segment hMem, h.isPlain_of_mem hMem⟩

/-
  The complete segments of a draft make a path with any
  segment, provided that none of them is empty.
-/
theorem Draft.EndsAt.isPath_concat
    {draft : Draft}
    {caret : Nat}
    {text : List Char}
    {segment : String}
    (h : draft.EndsAt caret text)
    (hParent : ∀ segment ∈ draft.parentPath, segment ≠ "")
    (hSegment : IsSegment segment) :
    IsPath (draft.parentPath ++ [segment]) := by
  refine ⟨by simp, ?_⟩
  intro other hMem
  rcases List.mem_append.mp hMem with hMem | hMem
  · have hOther := List.dropLast_subset _ hMem
    exact ⟨hParent other hMem, h.isPlain_of_mem hOther⟩
  · rw [List.mem_singleton.mp hMem]
    exact hSegment

------------------------------------------------------------
-- Closing a Draft
------------------------------------------------------------

/-
  An occurrence ends with a parenthesis put behind some text
  exactly if its path is a draft that ends with that text.
-/
theorem Occurrence.standsIn_close_iff
    {occurrence : Occurrence}
    {head rest : List Char}
    (hFinish : occurrence.finish = Text.size head + 1) :
    occurrence.StandsIn (head ++ ')' :: rest) ↔
      IsPath occurrence.path ∧
        (Draft.mk occurrence.start occurrence.path).EndsAt
          (Text.size head) head := by
  rw [standsIn_iff]
  constructor
  · rintro ⟨hPath, before, after, hText, hStart, hSum⟩
    have hHead :
        before ++ (opener ++ body occurrence.path) = head := by
      have hSame :
          before ++ (opener ++ body occurrence.path) ++
              ')' :: after =
            head ++ ')' :: rest := by
        rw [← hText]
        simp
      apply (Text.append_inj hSame ?_).1
      rw [Text.size_append, Text.size_append, size_opener]
      omega
    refine ⟨hPath, before, body occurrence.path, [], ?_,
      hStart, ?_, ?_, ?_⟩
    · rw [List.append_nil, hHead]
    · dsimp only
      omega
    · intro c hMem
      exact isBracket_of_mem_body hPath hMem
    · rw [segments_body hPath, List.map_map,
        String.ofList_comp_toList, List.map_id]
  · rintro ⟨hPath, before, typed, after, hText, hStart,
      hCaret, -, hSegments⟩
    dsimp only at hStart hCaret hSegments
    have hBody : body occurrence.path = typed := by
      rw [hSegments, body_segments]
    have hAfter : after = [] := by
      have hSize := congrArg Text.size hText
      simp only [Text.size_append, size_opener] at hSize
      apply Text.size_eq_zero_iff.mp
      omega
    refine ⟨hPath, before, rest, ?_, hStart, ?_⟩
    · rw [hBody, ← hText, hAfter]
      simp
    · rw [hBody]
      omega

/-
  The placeholders that end with a parenthesis put at a caret
  are the draft there, if that makes a path.
-/
theorem mem_scan_close_iff
    {text head : String}
    {caret : Nat}
    {occurrence : Occurrence}
    (hHead : Text.before? caret text.toList = some head.toList)
    (hFinish : occurrence.finish = caret + 1)
    (rest : String) :
    occurrence ∈ scan (head ++ ")" ++ rest) ↔
      IsPath occurrence.path ∧
        draftAt? text caret =
          some ⟨occurrence.start, occurrence.path⟩ := by
  rcases Text.before?_eq_some_iff.mp hHead with
    ⟨⟨tail, hText⟩, rfl⟩
  have hClosed :
      (head ++ ")" ++ rest).toList =
        head.toList ++ ')' :: rest.toList := by
    simp
  rw [mem_scan_iff, hClosed,
    Occurrence.standsIn_close_iff hFinish,
    draftAt?_eq_some_iff, ← hText, Draft.endsAt_append_iff]

/-
  A draft whose last segment is replaced by another and closed
  is a placeholder that starts where the draft does.
-/
theorem Draft.EndsAt.exists_occurrence
    {draft : Draft}
    {caret : Nat}
    {text head : List Char}
    {segment : String}
    (h : draft.EndsAt caret text)
    (hHead :
      Text.before? (caret - Text.size draft.stem.toList) text =
        some head)
    (hParent : ∀ segment ∈ draft.parentPath, segment ≠ "")
    (hSegment : IsSegment segment)
    (rest : List Char) :
    ∃ occurrence : Occurrence,
      occurrence.StandsIn
          (head ++ segment.toList ++ ')' :: rest) ∧
        occurrence.start = draft.start ∧
        occurrence.path = draft.parentPath ++ [segment] := by
  rcases h.before?_stem with ⟨before, hStart, hBefore⟩
  rw [hHead, Option.some.injEq] at hBefore
  refine
    ⟨⟨draft.start,
      draft.start + openerSize +
        Text.size (body (draft.parentPath ++ [segment])) + 1,
      draft.parentPath ++ [segment]⟩, ?_, rfl, rfl⟩
  apply Occurrence.standsIn_iff.mpr
  refine
    ⟨h.isPath_concat hParent hSegment, before, rest, ?_,
      hStart, rfl⟩
  rw [body_concat, hBefore]
  simp only [List.append_assoc]

------------------------------------------------------------
-- Carets in a Placeholder
------------------------------------------------------------

/-
  Every caret between the opener and the parenthesis of an
  occurrence ends a draft. Its complete segments are the first
  ones of the occurrence, and the next one of the occurrence
  starts with the segment being typed.
-/
theorem Occurrence.StandsIn.exists_draft
    {occurrence : Occurrence}
    {text : List Char}
    {caret : Nat}
    (h : occurrence.StandsIn text)
    (hOffset : Text.isOffset caret text)
    (hOpener : occurrence.start + openerSize ≤ caret)
    (hClose : caret < occurrence.finish) :
    ∃ draft : Draft, draft.EndsAt caret text ∧
      draft.start = occurrence.start ∧
      draft.parentPath <+: occurrence.path ∧
      ∃ segment,
        occurrence.path[draft.parentPath.length]? =
            some segment ∧
          draft.stem.toList <+: segment.toList := by
  rcases standsIn_iff.mp h with
    ⟨hPath, before, after, hText, hStart, hFinish⟩
  rcases Text.isOffset_iff.mp hOffset with
    ⟨head, tail, hHead, hCaret⟩
  -- The caret falls behind the opener and within the body.
  have hSame :
      before ++ opener ++
          (body occurrence.path ++ ')' :: after) =
        head ++ tail := by
    rw [hHead, ← hText, List.append_assoc]
  rcases Text.exists_between hSame (by
      rw [Text.size_append, size_opener]
      omega) with
    ⟨typed, hTyped, hRest⟩
  have hSize := congrArg Text.size hTyped
  rw [Text.size_append, Text.size_append, size_opener]
    at hSize
  rcases Text.exists_between hRest.symm (by omega) with
    ⟨remainder, hBody, -⟩
  rcases exists_segments_of_body_eq hPath hBody with
    ⟨parent, stem, segment, others, hSegments, hWhole, hStem⟩
  refine
    ⟨⟨occurrence.start, (segments typed).map String.ofList⟩,
      ⟨before, typed, tail, ?_, hStart, ?_, ?_, rfl⟩,
      rfl, ?_⟩
  · rw [← hHead, hTyped, List.append_assoc before opener]
  · dsimp only
    omega
  · intro c hMem
    apply isBracket_of_mem_body hPath
    rw [hBody]
    exact List.mem_append_left _ hMem
  · rcases
      Draft.parts_of_path_eq
        (show (Draft.mk occurrence.start
            ((segments typed).map String.ofList)).path =
          parent ++ [stem] from hSegments) with
      ⟨hParent, hLast⟩
    rw [hParent, hLast, hWhole]
    refine ⟨List.prefix_append .., segment, ?_, hStem⟩
    rw [List.getElem?_append_right (Nat.le_refl _)]
    simp

------------------------------------------------------------
-- Agreement
------------------------------------------------------------

/-
  A parenthesis at a caret closes a placeholder exactly if a
  draft without empty segments ends there, and that draft is
  the placeholder. At every caret within the body of a
  placeholder there is a draft of the first part of it.
-/
theorem draft_scan_agreement
    (text : String)
    (caret : Nat) :
    (∀ head rest : String,
      Text.before? caret text.toList = some head.toList →
        ((∃ occurrence ∈ scan (head ++ ")" ++ rest),
            occurrence.finish = caret + 1) ↔
          ∃ draft, draftAt? text caret = some draft ∧
            ∀ segment ∈ draft.rawPath, segment ≠ "") ∧
        ∀ occurrence ∈ scan (head ++ ")" ++ rest),
          occurrence.finish = caret + 1 →
            ∀ draft, draftAt? text caret = some draft →
              occurrence.start = draft.start ∧
                occurrence.rawPath = draft.rawPath) ∧
      ∀ occurrence ∈ scan text,
        Text.isOffset caret text.toList →
          occurrence.start + 6 ≤ caret →
            caret < occurrence.finish →
              ∃ draft, draftAt? text caret = some draft ∧
                draft.start = occurrence.start ∧
                draft.parentPath <+: occurrence.path ∧
                ∃ segment,
                  occurrence.path[draft.parentPath.length]? =
                      some segment ∧
                    draft.stem.toList <+: segment.toList := by
  constructor
  · intro head rest hHead
    constructor
    · constructor
      · rintro ⟨occurrence, hMem, hFinish⟩
        rcases (mem_scan_close_iff hHead hFinish rest).mp hMem
          with ⟨hPath, hDraft⟩
        refine ⟨_, hDraft, ?_⟩
        intro segment hSegment
        rcases List.mem_cons.mp hSegment with
          rfl | hSegment
        · decide
        · exact (hPath.2 segment hSegment).1
      · rintro ⟨draft, hDraft, hSegments⟩
        have hEnds := draftAt?_eq_some_iff.mp hDraft
        refine
          ⟨⟨draft.start, caret + 1, draft.path⟩, ?_, rfl⟩
        apply (mem_scan_close_iff hHead rfl rest).mpr
        refine ⟨?_, hDraft⟩
        apply hEnds.isPath
        intro segment hMem
        exact hSegments segment (List.mem_cons_of_mem _ hMem)
    · intro occurrence hMem hFinish draft hDraft
      have hOwn :=
        ((mem_scan_close_iff hHead hFinish rest).mp hMem).2
      rw [hDraft, Option.some.injEq] at hOwn
      rw [hOwn]
      exact ⟨rfl, rfl⟩
  · intro occurrence hMem hOffset hOpener hClose
    rcases
      (mem_scan_iff.mp hMem).exists_draft hOffset hOpener
        hClose with
      ⟨draft, hDraft, hDescribes⟩
    exact
      ⟨draft, draftAt?_eq_some_iff.mpr hDraft, hDescribes⟩

/-
  The placeholder `$(mcp.é.b)` is a draft until it is closed,
  and has a draft of `é` right behind that character.
-/
theorem draft_scan_agreement_of_accent :
    (∃ occurrence ∈ scan ("$(mcp.é.b" ++ ")" ++ "!"),
        occurrence.finish = 11) ∧
      ∃ draft, draftAt? "$(mcp.é.b)" 8 = some draft ∧
        draft.start = 0 ∧ draft.parentPath <+: ["é", "b"] := by
  have hHead :
      Text.before? 10 "$(mcp.é.b".toList =
        some "$(mcp.é.b".toList := by
    decide
  have hDraft :
      draftAt? "$(mcp.é.b" 10 = some ⟨0, ["é", "b"]⟩ := by
    decide
  have hClosed :=
    (draft_scan_agreement "$(mcp.é.b" 10).1 _ "!" hHead
  have hScan :
      scan "$(mcp.é.b)" = [⟨0, 11, ["é", "b"]⟩] := by
    decide +kernel
  have hMem :
      ⟨0, 11, ["é", "b"]⟩ ∈ scan "$(mcp.é.b)" := by
    rw [hScan]
    exact List.mem_singleton_self _
  rcases
    (draft_scan_agreement "$(mcp.é.b)" 8).2 _ hMem
      (by decide) (by decide) (by decide) with
    ⟨draft, hEight, hStart, hParent, -⟩
  refine ⟨?_, draft, hEight, hStart, hParent⟩
  apply hClosed.1.mpr
  refine ⟨_, hDraft, ?_⟩
  decide

end Placeholder

end DottedRef
