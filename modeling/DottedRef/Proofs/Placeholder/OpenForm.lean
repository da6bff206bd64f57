import DottedRef.Proofs.Placeholder.Draft

/-
  This file states the grammar of placeholders that are being
  typed in terms of the text before the caret, and proves that
  a draft is found exactly where the grammar has one and says
  what the grammar does. No earlier opener is looked at, and
  none has to be.

  Key definitions include:
    * `Placeholder.IsOpenForm`

  Key theorems include:
    * `Placeholder.IsOpenForm.unique`
    * `Placeholder.Draft.endsAt_iff_isOpenForm`
    * `Placeholder.Draft.rawPath_parts`
    * `Placeholder.draft_exact`
-/

namespace DottedRef

namespace Placeholder

------------------------------------------------------------
-- Grammar
------------------------------------------------------------

/-
  The text before a caret is some text, an opener, and what
  has been typed behind it, which holds no bracket.
-/
structure IsOpenForm
    (text : String)
    (caret : Nat)
    (before typed : String) : Prop where
  head :
    Text.before? caret text.toList =
      some (before ++ "$(mcp." ++ typed).toList
  dollar : '$' ∉ typed.toList
  opening : '(' ∉ typed.toList
  closing : ')' ∉ typed.toList

/- Brackets are the three characters that are not typed. -/
theorem all_not_isBracket_iff
    {typed : List Char} :
    (∀ c ∈ typed, isBracket c = false) ↔
      '$' ∉ typed ∧ '(' ∉ typed ∧ ')' ∉ typed := by
  constructor
  · intro h
    have hBracket :
        ∀ c, isBracket c = true → c ∉ typed := by
      intro c hTrue hMem
      rw [h c hMem] at hTrue
      simp at hTrue
    exact
      ⟨hBracket '$' rfl, hBracket '(' rfl, hBracket ')' rfl⟩
  · rintro ⟨hDollar, hOpening, hClosing⟩ c hMem
    simp only [isBracket, Bool.or_eq_false_iff,
      decide_eq_false_iff_not]
    refine ⟨⟨?_, ?_⟩, ?_⟩ <;> rintro rfl
    · exact hDollar hMem
    · exact hOpening hMem
    · exact hClosing hMem

/- An open form is an opener and typed text without brackets. -/
theorem isOpenForm_iff
    {text before typed : String}
    {caret : Nat} :
    IsOpenForm text caret before typed ↔
      Text.before? caret text.toList =
          some (before.toList ++ opener ++ typed.toList) ∧
        ∀ c ∈ typed.toList, isBracket c = false := by
  have hWritten :
      (before ++ "$(mcp." ++ typed).toList =
        before.toList ++ opener ++ typed.toList := by
    rw [String.toList_append, String.toList_append]
    rfl
  rw [all_not_isBracket_iff, ← hWritten]
  constructor
  · intro h
    exact ⟨h.head, h.dollar, h.opening, h.closing⟩
  · rintro ⟨hHead, hDollar, hOpening, hClosing⟩
    exact ⟨hHead, hDollar, hOpening, hClosing⟩

/-
  There is one open form at most at a caret: its opener is the
  last one before the caret.
-/
theorem IsOpenForm.unique
    {text before typed before' typed' : String}
    {caret : Nat}
    (h : IsOpenForm text caret before typed)
    (h' : IsOpenForm text caret before' typed') :
    before' = before ∧ typed' = typed := by
  rcases isOpenForm_iff.mp h with ⟨hHead, hTyped⟩
  rcases isOpenForm_iff.mp h' with ⟨hHead', hTyped'⟩
  have hSame := hHead'.symm.trans hHead
  rw [Option.some.injEq] at hSame
  have hSize :
      Text.size before'.toList = Text.size before.toList := by
    apply Option.some.inj
    rw [← lastIndexOf?_opener hTyped',
      ← lastIndexOf?_opener hTyped, hSame]
  rw [List.append_assoc, List.append_assoc] at hSame
  rcases Text.append_inj hSame hSize with ⟨hBefore, hRest⟩
  exact
    ⟨String.toList_inj.mp hBefore,
      String.toList_inj.mp (List.append_cancel_left hRest)⟩

------------------------------------------------------------
-- Drafts
------------------------------------------------------------

/- A draft ends at a caret if it is the open form there. -/
theorem Draft.endsAt_iff_isOpenForm
    {draft : Draft}
    {caret : Nat}
    {text : String} :
    draft.EndsAt caret text.toList ↔
      ∃ before typed, IsOpenForm text caret before typed ∧
        draft.start = Text.size before.toList ∧
        draft.path =
          (segments typed.toList).map String.ofList := by
  constructor
  · rintro ⟨before, typed, after, hText, hStart, hCaret,
      hTyped, hPath⟩
    refine
      ⟨String.ofList before, String.ofList typed,
        isOpenForm_iff.mpr ?_, ?_, ?_⟩
    · rw [String.toList_ofList, String.toList_ofList]
      refine ⟨?_, hTyped⟩
      apply Text.before?_eq_some_iff.mpr
      refine ⟨⟨after, ?_⟩, ?_⟩
      · rw [List.append_assoc before, hText]
      · rw [Text.size_append, Text.size_append, size_opener,
          hStart, hCaret]
    · rw [String.toList_ofList, hStart]
    · rw [String.toList_ofList, hPath]
  · rintro ⟨before, typed, hForm, hStart, hPath⟩
    rcases isOpenForm_iff.mp hForm with ⟨hHead, hTyped⟩
    rcases Text.before?_eq_some_iff.mp hHead with
      ⟨⟨after, hText⟩, hSize⟩
    refine
      ⟨before.toList, typed.toList, after, ?_, hStart.symm,
        ?_, hTyped, hPath⟩
    · rw [← List.append_assoc before.toList opener, hText]
    · rw [← hSize, Text.size_append, Text.size_append,
        size_opener, hStart]

/-
  The path of a draft is cut into the complete segments and the
  one being typed. The cut is in range, since there is a
  segment behind the root token.
-/
theorem Draft.rawPath_parts
    {draft : Draft}
    (hPath : draft.path ≠ []) :
    1 ≤ draft.rawPath.length - 1 ∧
      (draft.rawPath.take (draft.rawPath.length - 1)).drop 1 =
        draft.parentPath ∧
      draft.rawPath.getLast? = some draft.stem ∧
      draft.parentPath ++ [draft.stem] = draft.path := by
  rcases List.eq_nil_or_concat draft.path with
    hNil | ⟨parent, stem, hConcat⟩
  · exact absurd hNil hPath
  · rw [List.concat_eq_append] at hConcat
    rcases parts_of_path_eq hConcat with ⟨hParent, hStem⟩
    rw [hParent, hStem, rawPath, hConcat]
    refine ⟨?_, ?_, ?_, rfl⟩
    · simp
    · simp
    · rw [← List.cons_append, List.getLast?_concat]

/-
  There is a draft at a caret exactly if the caret is usable
  and the text before it has an open form. The form is unique,
  and the draft starts at its opener. The draft's segments are
  the parts between the points of what is typed, the last of
  them being the one that is typed on.
-/
theorem draft_exact
    (text : String)
    (caret : Nat) :
    ((∃ draft, draftAt? text caret = some draft) ↔
      Text.isOffset caret text.toList ∧
        ∃ before typed, IsOpenForm text caret before typed) ∧
    ∀ draft, draftAt? text caret = some draft →
      ∃ before typed, IsOpenForm text caret before typed ∧
        (∀ before' typed',
          IsOpenForm text caret before' typed' →
            before' = before ∧ typed' = typed) ∧
        draft.start = Text.size before.toList ∧
        caret =
          draft.start + 6 + Text.size typed.toList ∧
        ∃ parts : List String,
          parts ≠ [] ∧
          (∀ part ∈ parts, '.' ∉ part.toList) ∧
          ".".intercalate parts = typed ∧
          draft.rawPath = "mcp" :: parts ∧
          1 ≤ draft.rawPath.length - 1 ∧
          (draft.rawPath.take
            (draft.rawPath.length - 1)).drop 1 =
              draft.parentPath ∧
          draft.rawPath.getLast? = some draft.stem ∧
          draft.parentPath ++ [draft.stem] = parts := by
  constructor
  · constructor
    · rintro ⟨draft, hDraft⟩
      rcases
        Draft.endsAt_iff_isOpenForm.mp
          (draftAt?_eq_some_iff.mp hDraft) with
        ⟨before, typed, hForm, -, -⟩
      refine ⟨?_, before, typed, hForm⟩
      rcases Text.before?_eq_some_iff.mp hForm.head with
        ⟨⟨after, hText⟩, hSize⟩
      exact Text.isOffset_iff.mpr ⟨_, after, hText, hSize⟩
    · rintro ⟨-, before, typed, hForm⟩
      refine
        ⟨⟨Text.size before.toList,
          (segments typed.toList).map String.ofList⟩, ?_⟩
      apply draftAt?_eq_some_iff.mpr
      exact
        Draft.endsAt_iff_isOpenForm.mpr
          ⟨before, typed, hForm, rfl, rfl⟩
  · intro draft hDraft
    rcases
      Draft.endsAt_iff_isOpenForm.mp
        (draftAt?_eq_some_iff.mp hDraft) with
      ⟨before, typed, hForm, hStart, hPath⟩
    have hNonempty : draft.path ≠ [] := by
      rw [hPath]
      simpa [segments] using Text.split_ne_nil '.' typed.toList
    rcases Draft.rawPath_parts hNonempty with
      ⟨hRange, hParent, hStem, hParts⟩
    rcases isOpenForm_iff.mp hForm with ⟨hHead, hTyped⟩
    refine
      ⟨before, typed, hForm, fun _ _ => hForm.unique, hStart,
        ?_, draft.path, hNonempty, ?_, ?_, rfl, hRange,
        hParent, hStem, hParts⟩
    · rcases Text.before?_eq_some_iff.mp hHead with
        ⟨-, hSize⟩
      rw [Text.size_append, Text.size_append, size_opener]
        at hSize
      unfold openerSize at hSize
      omega
    · intro part hPart hPoint
      rw [hPath] at hPart
      have hPlain :=
        isPlain_of_mem_segments hTyped hPart hPoint
      exact (isPlain_iff.mp hPlain).2.1 rfl
    · apply String.toList_inj.mp
      rw [hPath]
      exact body_segments typed.toList

/-
  Behind `$(mcp.é..b` there is a draft with an empty segment
  in the middle. The opener before it plays no part.
-/
theorem draft_exact_of_empty_segment :
    let text := "$(mcp.a $(mcp.é..b)"
    let draft : Draft := ⟨8, ["é", "", "b"]⟩
    IsOpenForm text 19 "$(mcp.a " "é..b" ∧
      (∃ draft, draftAt? text 19 = some draft) ∧
      draftAt? text 19 = some draft ∧
      draft.start = Text.size "$(mcp.a ".toList ∧
      draft.parentPath ++ [draft.stem] = draft.path := by
  intro text draft
  have hForm : IsOpenForm text 19 "$(mcp.a " "é..b" := by
    constructor <;> decide
  have hDraft : draftAt? text 19 = some draft := by
    decide
  rcases draft_exact text 19 with ⟨hExists, hExact⟩
  rcases hExact draft hDraft with
    ⟨before, typed, -, hUnique, hStart, -, parts, -, -, -,
      hRaw, -, -, -, hParts⟩
  rcases hUnique _ _ hForm with ⟨rfl, -⟩
  rw [Draft.rawPath, List.cons.injEq] at hRaw
  refine
    ⟨hForm, hExists.mpr ⟨by decide, _, _, hForm⟩, hDraft,
      hStart, ?_⟩
  rw [hParts, hRaw.2]

end Placeholder

end DottedRef
