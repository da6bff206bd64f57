import DottedRef.Proofs.Placeholder.Scan

/-
  This file proves what is found at an offset: the first
  placeholder of a scan that holds the offset or ends at it.
  Not looking past the offset loses nothing, and a placeholder
  is found at every offset within it. Only where one ends and
  the next one starts are there two of them, and the left one
  is found.

  Main declarations:
    * `Placeholder.find?_takeWhile`
    * `Placeholder.occurrenceAt?_eq_find?`
    * `Placeholder.occurrenceAt?_of_mem`
    * `Placeholder.length_filter_touches_le`
    * `Placeholder.exists_scan_eq_of_touches`
    * `Placeholder.occurrenceAt?_exact`
-/

namespace DottedRef

namespace Placeholder

/-
  What is searched for lies in the first part of a list if the
  rest of the list holds none of it.
-/
theorem find?_takeWhile
    {p q : α → Bool}
    {list : List α}
    (hOrder : list.Pairwise fun first second =>
      p second → p first)
    (hSought : ∀ item, q item → p item) :
    (list.takeWhile p).find? q = list.find? q := by
  induction list with
  | nil => rfl
  | cons item list ih =>
      rcases List.pairwise_cons.mp hOrder with
        ⟨hFirst, hRest⟩
      by_cases hItem : p item = true
      · rw [List.takeWhile_cons_of_pos hItem, List.find?_cons,
          List.find?_cons, ih hRest]
      · rw [List.takeWhile_cons_of_neg hItem, List.find?_nil]
        symm
        apply List.find?_eq_none.mpr
        intro other hMem hOther
        rcases List.mem_cons.mp hMem with rfl | hMem
        · exact hItem (hSought other hOther)
        · exact hItem (hFirst other hMem (hSought other hOther))

/- Looking no further than the offset loses nothing. -/
theorem occurrenceAt?_eq_find?
    {text : String}
    {offset : Nat}
    (hOffset : Text.isOffset offset text.toList) :
    occurrenceAt? text offset =
      (scan text).find? (·.touches offset) := by
  unfold occurrenceAt?
  rw [if_pos hOffset]
  apply find?_takeWhile
  · apply (scan_pairwise text).imp
    intro first second hOrder hSecond
    simp only [decide_eq_true_eq] at hSecond ⊢
    omega
  · intro occurrence hTouches
    unfold Occurrence.touches at hTouches
    simp only [Bool.and_eq_true] at hTouches
    exact hTouches.1

/-
  A placeholder is found at every offset past its start up to
  its end. One that ends where it starts is left of it, but
  does not reach past its start.
-/
theorem occurrenceAt?_of_mem
    {text : String}
    {occurrence : Occurrence}
    {offset : Nat}
    (hMem : occurrence ∈ scan text)
    (hOffset : Text.isOffset offset text.toList)
    (hStart : occurrence.start < offset)
    (hFinish : offset ≤ occurrence.finish) :
    occurrenceAt? text offset = some occurrence := by
  rcases List.append_of_mem hMem with ⟨before, after, hScan⟩
  have hOrder := scan_pairwise text
  rw [hScan] at hOrder
  have hEarlier :
      ∀ earlier ∈ before,
        earlier.finish ≤ occurrence.start := by
    intro earlier hBefore
    exact
      ((List.pairwise_append.mp hOrder).2.2 earlier hBefore
        occurrence List.mem_cons_self).2
  rw [occurrenceAt?_eq_find? hOffset, hScan]
  apply List.find?_eq_some_iff_append.mpr
  refine ⟨?_, before, after, rfl, ?_⟩
  · simp only [Occurrence.touches, Bool.and_eq_true,
      decide_eq_true_eq]
    omega
  · intro earlier hBefore
    have hLe := hEarlier earlier hBefore
    simp only [Occurrence.touches, Bool.not_eq_true',
      Bool.and_eq_false_iff, decide_eq_false_iff_not]
    omega

------------------------------------------------------------
-- Shared Offsets
------------------------------------------------------------

/- An offset that is touched is within the closed span. -/
theorem Occurrence.touches_iff
    {occurrence : Occurrence}
    {offset : Nat} :
    occurrence.touches offset ↔
      occurrence.start ≤ offset ∧
        offset ≤ occurrence.finish := by
  unfold touches
  rw [Bool.and_eq_true, decide_eq_true_eq,
    decide_eq_true_eq]

/-
  An offset is touched by two placeholders at most: a third
  one would start past the end of the first.
-/
theorem length_filter_touches_le
    (text : String)
    (offset : Nat) :
    ((scan text).filter (·.touches offset)).length ≤ 2 := by
  have hOrder := (scan_pairwise text).filter (·.touches offset)
  have hTouches :
      ∀ occurrence ∈ (scan text).filter (·.touches offset),
        occurrence.start ≤ offset ∧
          offset ≤ occurrence.finish := by
    intro occurrence hMem
    exact
      Occurrence.touches_iff.mp (List.mem_filter.mp hMem).2
  generalize (scan text).filter (·.touches offset) = touching
    at hOrder hTouches ⊢
  rw [List.pairwise_iff_getElem] at hOrder
  apply Nat.le_of_not_lt
  intro hMany
  have hFirst := hTouches touching[0] (List.getElem_mem _)
  have hThird := hTouches touching[2] (List.getElem_mem _)
  have hSecond :=
    hOrder 0 1 (by omega) (by omega) Nat.zero_lt_one
  have hBetween :=
    hOrder 1 2 (by omega) hMany (Nat.lt_succ_self 1)
  omega

/-
  Two placeholders that touch an offset meet there, and none
  comes between them.
-/
theorem exists_scan_eq_of_touches
    {text : String}
    {left right : Occurrence}
    {offset : Nat}
    (h : (scan text).filter (·.touches offset) =
      [left, right]) :
    left.finish = offset ∧ right.start = offset ∧
      ∃ before after,
        scan text = before ++ left :: right :: after := by
  rcases List.filter_eq_cons_iff.mp h with
    ⟨before, others, hScan, -, hLeft, hOthers⟩
  rcases List.filter_eq_cons_iff.mp hOthers with
    ⟨between, after, rfl, hBetween, hRight, -⟩
  have hOrder := scan_pairwise text
  rw [hScan] at hOrder
  rcases List.pairwise_cons.mp
      (List.pairwise_append.mp hOrder).2.1 with
    ⟨hLater, hRest⟩
  have hStarts := Occurrence.touches_iff.mp hLeft
  have hEnds := Occurrence.touches_iff.mp hRight
  have hApart := hLater right (by simp)
  refine ⟨by omega, by omega, before, after, ?_⟩
  -- One in between would start and end at the offset itself.
  have hNone : between = [] := by
    apply List.eq_nil_iff_forall_not_mem.mpr
    intro middle hMem
    apply hBetween middle hMem
    have hAfterLeft :=
      hLater middle (List.mem_append_left _ hMem)
    have hBeforeRight :=
      (List.pairwise_append.mp hRest).2.2 middle hMem right
        (by simp)
    apply Occurrence.touches_iff.mpr
    omega
  rw [hScan, hNone, List.nil_append]

/-
  Where a text cannot be cut, nothing is found; elsewhere it is
  the first of the text's placeholders that touches the offset.
  Two placeholders at most touch an offset. Two do only where
  one ends and the next one starts, and the left one is found.
-/
theorem occurrenceAt?_exact
    (text : String)
    (offset : Nat) :
    (Text.isOffset offset text.toList = false →
        occurrenceAt? text offset = none) ∧
      (Text.isOffset offset text.toList = true →
        occurrenceAt? text offset =
          (scan text).find? (·.touches offset)) ∧
      ((scan text).filter (·.touches offset)).length ≤ 2 ∧
      ∀ left right,
        (scan text).filter (·.touches offset) =
            [left, right] →
          left.finish = offset ∧ right.start = offset ∧
            (∃ before after,
              scan text =
                before ++ left :: right :: after) ∧
            occurrenceAt? text offset = some left := by
  refine
    ⟨?_, occurrenceAt?_eq_find?,
      length_filter_touches_le text offset, ?_⟩
  · intro hOffset
    unfold occurrenceAt?
    rw [hOffset]
    rfl
  · intro left right hFilter
    rcases exists_scan_eq_of_touches hFilter with
      ⟨hLeft, hRight, before, after, hScan⟩
    refine ⟨hLeft, hRight, ⟨before, after, hScan⟩, ?_⟩
    have hMem : left ∈ scan text := by
      rw [hScan]
      simp
    have hOffset := (mem_scan_iff.mp hMem).isOffset_finish
    rw [hLeft] at hOffset
    rw [occurrenceAt?_eq_find? hOffset, ← List.head?_filter,
      hFilter, List.head?_cons]

/-
  Between two placeholders that meet, the left one is found;
  within a character, nothing is.
-/
theorem occurrenceAt?_exact_of_adjacent :
    let text := "$(mcp.é)$(mcp.b)"
    let left : Occurrence := ⟨0, 9, ["é"]⟩
    let right : Occurrence := ⟨9, 17, ["b"]⟩
    occurrenceAt? text 7 = none ∧
      occurrenceAt? text 17 = some right ∧
      left.finish = 9 ∧ right.start = 9 ∧
      occurrenceAt? text 9 = some left := by
  intro text left right
  have hScan : scan text = [left, right] := by
    decide +kernel
  have hFilter :
      (scan text).filter (·.touches 9) = [left, right] := by
    rw [hScan]
    decide
  rcases (occurrenceAt?_exact text 9).2.2.2 _ _ hFilter with
    ⟨hLeft, hRight, -, hFound⟩
  refine
    ⟨(occurrenceAt?_exact text 7).1 (by decide), ?_, hLeft,
      hRight, hFound⟩
  rw [(occurrenceAt?_exact text 17).2.1 (by decide), hScan]
  decide

end Placeholder

end DottedRef
