import DottedRef.Engine
import DottedRef.Proofs.Placeholder.OpenForm

/-
  This file proves what completion depends on: the segments
  that are complete before the caret and nothing else. What
  stands before the opener or behind the caret and what has
  been typed of the last segment play no part.

  Key definitions include:
    * `Placeholder.IsCompleted`
    * `Engine.offers`

  Key theorems include:
    * `Placeholder.IsCompleted.exists_path`
    * `Placeholder.draftAt?_stem`
    * `Engine.candidates_eq_offers`
    * `Engine.candidates_stem`
    * `Engine.completion_ignores_surroundings`
-/

namespace DottedRef

------------------------------------------------------------
-- Completed Segments
------------------------------------------------------------

namespace Placeholder

/-
  What is typed up to the start of a segment: nothing, or
  segments each of which has its point. Segments may be empty.
-/
structure IsCompleted
    (typed : String) : Prop where
  dollar : '$' ∉ typed.toList
  opening : '(' ∉ typed.toList
  closing : ')' ∉ typed.toList
  point : typed = "" ∨ typed.toList.getLast? = some '.'

/- Segments with their points are parts, each ended. -/
theorem stemPrefix_eq_ended
    (path : List String) :
    stemPrefix path =
      Text.ended '.' (path.map String.toList) := by
  simp [stemPrefix, Text.ended, List.flatMap_map]

/-
  What is completed is the segments between the points, since
  nothing stands behind the last point.
-/
theorem IsCompleted.exists_path
    {typed : String}
    (h : IsCompleted typed) :
    ∃ path,
      stemPrefix path = typed.toList ∧
        ∀ segment ∈ path, '.' ∉ segment.toList := by
  rcases List.eq_nil_or_concat (segments typed.toList) with
    hNil | ⟨parts, last, hParts⟩
  · exact absurd hNil (Text.split_ne_nil '.' typed.toList)
  · rw [List.concat_eq_append] at hParts
    rcases Text.not_mem_of_split_eq hParts with
      ⟨hPoints, hLast⟩
    have hText := Text.ended_append_of_split_eq hParts
    have hEmpty : last = [] := by
      apply Text.eq_nil_of_split_eq hParts
      simpa using h.point
    refine ⟨parts.map String.ofList, ?_, ?_⟩
    · rw [hEmpty, List.append_nil] at hText
      rw [stemPrefix_eq_ended, List.map_map,
        String.toList_comp_ofList, List.map_id, hText]
    · intro segment hSegment
      rcases List.mem_map.mp hSegment with ⟨part, hPart, rfl⟩
      simpa using hPoints part hPart

/-
  Behind segments with their points, the segment that is being
  typed is the last one.
-/
theorem segments_stemPrefix_append
    {path : List String}
    {stem : String}
    (hPath : ∀ segment ∈ path, '.' ∉ segment.toList)
    (hStem : '.' ∉ stem.toList) :
    (segments (stemPrefix path ++ stem.toList)).map
        String.ofList =
      path ++ [stem] := by
  have hParts :
      ∀ part ∈ path.map String.toList, '.' ∉ part := by
    simpa using hPath
  have hSegments :
      segments (stemPrefix path ++ stem.toList) =
        path.map String.toList ++ [stem.toList] := by
    rw [stemPrefix_eq_ended]
    exact Text.split_ended_append hParts hStem
  rw [hSegments, List.map_append, List.map_map,
    String.ofList_comp_toList]
  simp

/-
  Right behind a segment that is being typed there is a draft
  of the completed segments and that one, whatever stands
  before its opener and behind the caret.
-/
theorem draftAt?_stem
    {typed stem : String}
    {path : List String}
    (hTyped : IsCompleted typed)
    (hPath : stemPrefix path = typed.toList)
    (hPoints : ∀ segment ∈ path, '.' ∉ segment.toList)
    (hStem : ∀ c ∈ stem.toList, IsPlain c)
    (before after : String) :
    draftAt? (before ++ "$(mcp." ++ typed ++ stem ++ after)
        (Text.size
          (before ++ "$(mcp." ++ typed ++ stem).toList) =
      some ⟨Text.size before.toList, path ++ [stem]⟩ := by
  have hHead :
      (before ++ "$(mcp." ++ typed ++ stem).toList =
        before.toList ++
          (opener ++ (typed.toList ++ stem.toList)) := by
    simp [opener]
  have hBrackets :
      ∀ c ∈ typed.toList, isBracket c = false :=
    all_not_isBracket_iff.mpr
      ⟨hTyped.dollar, hTyped.opening, hTyped.closing⟩
  have hNoPoint : '.' ∉ stem.toList := by
    intro hMem
    exact (isPlain_iff.mp (hStem '.' hMem)).2.1 rfl
  apply draftAt?_eq_some_iff.mpr
  refine
    ⟨before.toList, typed.toList ++ stem.toList,
      after.toList, ?_, rfl, ?_, ?_, ?_⟩
  · rw [String.toList_append, hHead]
  · rw [hHead]
    simp only [Text.size_append, size_opener]
    omega
  · intro c hMem
    rcases List.mem_append.mp hMem with hMem | hMem
    · exact hBrackets c hMem
    · exact (isPlain_iff.mp (hStem c hMem)).2.2
  · rw [← hPath, segments_stemPrefix_append hPoints hNoPoint]

end Placeholder

------------------------------------------------------------
-- Offers
------------------------------------------------------------

namespace Engine

/- The pairs below what a path leads to. -/
def offers
    (engine : Engine)
    (path : List String) : List (String × Json.Node) :=
  match engine.current? with
  | none => []
  | some document =>
      match document.data.resolve path with
      | .resolved (.object pairs) => pairs
      | _ => []

/- What may come next is below the segments of the draft. -/
theorem candidates_eq_offers
    {text : String}
    {caret : Nat}
    {draft : Placeholder.Draft}
    (engine : Engine)
    (hDraft : Placeholder.draftAt? text caret = some draft) :
    engine.candidates text caret =
      engine.offers draft.parentPath := by
  unfold candidates draftLookup? offers
  cases engine.current? with
  | none => rfl
  | some document =>
      simp only [hDraft, Option.bind_eq_bind,
        Option.bind_some]
      cases document.data.resolve draft.parentPath with
      | broken index segment => rfl
      | resolved node => cases node <;> rfl

/- What may come next is below the completed segments. -/
theorem candidates_stem
    {typed stem : String}
    {path : List String}
    (engine : Engine)
    (hTyped : Placeholder.IsCompleted typed)
    (hPath : Placeholder.stemPrefix path = typed.toList)
    (hPoints : ∀ segment ∈ path, '.' ∉ segment.toList)
    (hStem : ∀ c ∈ stem.toList, Placeholder.IsPlain c)
    (before after : String) :
    engine.candidates
        (before ++ "$(mcp." ++ typed ++ stem ++ after)
        (Text.size
          (before ++ "$(mcp." ++ typed ++ stem).toList) =
      engine.offers path := by
  have hDraft :=
    Placeholder.draftAt?_stem hTyped hPath hPoints hStem
      before after
  rw [engine.candidates_eq_offers hDraft]
  simp [Placeholder.Draft.parentPath]

/-
  Completion offers the keys below the completed segments, and
  it offers the same behind any other text before the opener,
  any other start of the next segment and with any other text
  behind the caret.
-/
theorem completion_ignores_surroundings
    {typed stem stem' : String}
    (hTyped : Placeholder.IsCompleted typed)
    (hStem : ∀ c ∈ stem.toList, Placeholder.IsPlain c)
    (hStem' : ∀ c ∈ stem'.toList, Placeholder.IsPlain c)
    (engine : Engine)
    (before before' after after' : String) :
    let head := before ++ "$(mcp." ++ typed ++ stem
    let head' := before' ++ "$(mcp." ++ typed ++ stem'
    let caret := Text.size head.toList
    let caret' := Text.size head'.toList
    engine.completion (head ++ after) caret =
        engine.completion (head' ++ after') caret' ∧
      engine.completionItems (head ++ after) caret =
        engine.completionItems (head' ++ after') caret' ∧
      ∃ path,
        Placeholder.stemPrefix path = typed.toList ∧
          (∀ segment ∈ path, '.' ∉ segment.toList) ∧
          engine.completion (head ++ after) caret =
            (engine.offers path).map Prod.fst := by
  intro head head' caret caret'
  rcases hTyped.exists_path with ⟨path, hPath, hPoints⟩
  have hCandidates :
      engine.candidates (head ++ after) caret =
        engine.offers path :=
    engine.candidates_stem hTyped hPath hPoints hStem
      before after
  have hCandidates' :
      engine.candidates (head' ++ after') caret' =
        engine.offers path :=
    engine.candidates_stem hTyped hPath hPoints hStem'
      before' after'
  unfold completion completionItems
  rw [hCandidates, hCandidates']
  exact ⟨rfl, rfl, path, hPath, hPoints, rfl⟩

/-
  Behind `x.`, the `é` that is typed, the openers before and
  the parenthesis behind it change nothing: the keys of `x`
  are offered.
-/
theorem completion_ignores_surroundings_of_accent :
    let document : Document :=
      ⟨.object
        [("placeholder", .object
          [("data", .object
            [("x", .object
              [("y", .boolean true), ("z", .null)])])])]⟩
    let engine : Engine :=
      { Engine.new "p.json" .host with
        store := ⟨"p.json", .loaded document, 1⟩ }
    let head := "$(mcp.a $(m" ++ "$(mcp." ++ "x." ++ "é"
    let head' := "" ++ "$(mcp." ++ "x." ++ ""
    Placeholder.IsCompleted "x." ∧
      (∀ c ∈ "é".toList, Placeholder.IsPlain c) ∧
      engine.completion (head ++ ")")
          (Text.size head.toList) =
        engine.completion (head' ++ "y)")
          (Text.size head'.toList) ∧
      engine.completion (head ++ ")")
          (Text.size head.toList) =
        ["y", "z"] := by
  intro document engine head head'
  have hTyped : Placeholder.IsCompleted "x." := by
    constructor <;> decide
  have hStem : ∀ c ∈ "é".toList, Placeholder.IsPlain c := by
    simp [Placeholder.IsPlain]
  have hEmpty : ∀ c ∈ "".toList, Placeholder.IsPlain c := by
    simp
  have hSame :=
    (completion_ignores_surroundings hTyped hStem hEmpty
      engine "$(mcp.a $(m" "" ")" "y)").1
  refine ⟨hTyped, hStem, hSame, ?_⟩
  rw [hSame]
  decide

end Engine

end DottedRef
