import DottedRef.Text

/-
  This file characterizes cuts of a text by the parts that
  they leave, and the search for a pattern by the place that
  it finds.

  Main declarations:
    * `Text.splitAt?_eq_some_iff`
    * `Text.after?_eq_some_iff`
    * `Text.slice?_eq_some_iff`
    * `Text.isOffset_iff`
    * `Text.isSome_before?`
    * `Text.isSome_after?`
    * `Text.exists_between`
    * `Text.append_inj`
    * `Text.slice?_append_left_iff`
    * `Text.slice?_append_right_iff`
    * `Text.exists_of_firstIndexOf?`
    * `Text.firstIndexOf?_le`
    * `Text.exists_of_lastIndexOf?`
    * `Text.le_lastIndexOf?`
-/

namespace DottedRef

namespace Text

------------------------------------------------------------
-- Cuts
------------------------------------------------------------

/- Only the empty text takes up no bytes. -/
theorem size_eq_zero_iff
    {text : List Char} :
    size text = 0 ↔ text = [] := by
  cases text with
  | nil => simp [size]
  | cons c text =>
      have hPos := c.utf8Size_pos
      simp only [size, reduceCtorEq, iff_false]
      omega

/-
  A cut succeeds exactly where the text falls into two parts
  the first of which has the given size.
-/
theorem splitAt?_eq_some_iff
    {offset : Nat}
    {text first rest : List Char} :
    splitAt? offset text = some (first, rest) ↔
      first ++ rest = text ∧ size first = offset := by
  induction text generalizing offset first with
  | nil =>
      rw [splitAt?]
      constructor
      · intro h
        split at h
        · rename_i hZero
          simp only [Option.some.injEq, Prod.mk.injEq] at h
          rcases h with ⟨rfl, rfl⟩
          exact ⟨rfl, hZero.symm⟩
        · simp at h
      · rintro ⟨hText, hSize⟩
        rcases List.append_eq_nil_iff.mp hText with ⟨rfl, rfl⟩
        exact if_pos hSize.symm
  | cons c text ih =>
      rw [splitAt?]
      by_cases hZero : offset = 0
      · subst hZero
        simp only [if_true, Option.some.injEq, Prod.mk.injEq,
          size_eq_zero_iff]
        constructor
        · rintro ⟨rfl, rfl⟩
          exact ⟨rfl, rfl⟩
        · rintro ⟨hText, rfl⟩
          exact ⟨rfl, hText.symm⟩
      · rw [if_neg hZero]
        constructor
        · intro h
          split at h
          · rename_i hRoom
            rcases Option.map_eq_some_iff.mp h with
              ⟨⟨inner, last⟩, hCut, hParts⟩
            simp only [Prod.mk.injEq] at hParts
            rcases hParts with ⟨rfl, rfl⟩
            rcases ih.mp hCut with ⟨hText, hSize⟩
            refine ⟨by rw [List.cons_append, hText], ?_⟩
            simp only [size, hSize]
            omega
          · simp at h
        · rintro ⟨hText, hSize⟩
          cases first with
          | nil => exact absurd hSize.symm hZero
          | cons d first =>
              rw [List.cons_append, List.cons.injEq] at hText
              rcases hText with ⟨rfl, hText⟩
              simp only [size] at hSize
              have hInner :
                  splitAt? (offset - d.utf8Size) text =
                    some (first, rest) :=
                ih.mpr ⟨hText, by omega⟩
              rw [if_pos (by omega), hInner]
              rfl

/- The part from an offset on follows a part of that size. -/
theorem after?_eq_some_iff
    {offset : Nat}
    {text rest : List Char} :
    after? offset text = some rest ↔
      ∃ first, first ++ rest = text ∧ size first = offset := by
  unfold after?
  rw [Option.map_eq_some_iff]
  constructor
  · rintro ⟨⟨first, last⟩, hCut, rfl⟩
    exact ⟨first, splitAt?_eq_some_iff.mp hCut⟩
  · rintro ⟨first, hFirst⟩
    exact
      ⟨(first, rest), splitAt?_eq_some_iff.mpr hFirst, rfl⟩

/- The part before an offset has that size. -/
theorem before?_eq_some_iff
    {offset : Nat}
    {text first : List Char} :
    before? offset text = some first ↔
      (∃ rest, first ++ rest = text) ∧ size first = offset := by
  unfold before?
  rw [Option.map_eq_some_iff]
  constructor
  · rintro ⟨⟨head, rest⟩, hCut, rfl⟩
    rcases splitAt?_eq_some_iff.mp hCut with ⟨hText, hSize⟩
    exact ⟨⟨rest, hText⟩, hSize⟩
  · rintro ⟨⟨rest, hText⟩, hSize⟩
    exact
      ⟨(first, rest),
        splitAt?_eq_some_iff.mpr ⟨hText, hSize⟩, rfl⟩

/- A usable offset is the size of a first part. -/
theorem isOffset_iff
    {offset : Nat}
    {text : List Char} :
    isOffset offset text ↔
      ∃ first rest, first ++ rest = text ∧
        size first = offset := by
  unfold isOffset
  rw [Option.isSome_iff_exists]
  constructor
  · rintro ⟨⟨first, rest⟩, hCut⟩
    exact ⟨first, rest, splitAt?_eq_some_iff.mp hCut⟩
  · rintro ⟨first, rest, hParts⟩
    exact ⟨(first, rest), splitAt?_eq_some_iff.mpr hParts⟩

/- Usable offsets are those that have a part before them. -/
@[simp] theorem isSome_before?
    (offset : Nat)
    (text : List Char) :
    (before? offset text).isSome = isOffset offset text := by
  simp [before?, isOffset]

/- Usable offsets are those that have a part behind them. -/
@[simp] theorem isSome_after?
    (offset : Nat)
    (text : List Char) :
    (after? offset text).isSome = isOffset offset text := by
  simp [after?, isOffset]

/- Every usable offset lies within the text or at its end. -/
theorem le_size_of_isOffset
    {offset : Nat}
    {text : List Char}
    (h : isOffset offset text) :
    offset ≤ size text := by
  rcases isOffset_iff.mp h with ⟨first, rest, rfl, rfl⟩
  rw [size_append]
  exact Nat.le_add_right ..

/- A slice stands between a part before and a part after it. -/
theorem slice?_eq_some_iff
    {first last : Nat}
    {text part : List Char} :
    slice? first last text = some part ↔
      ∃ before after, before ++ part ++ after = text ∧
        size before = first ∧
        size before + size part = last := by
  unfold slice?
  constructor
  · intro h
    split at h
    · rename_i hOrder
      rcases Option.bind_eq_some_iff.mp h with
        ⟨rest, hAfter, hBefore⟩
      rcases after?_eq_some_iff.mp hAfter with
        ⟨before, rfl, hFirst⟩
      rcases before?_eq_some_iff.mp hBefore with
        ⟨⟨after, rfl⟩, hPart⟩
      exact
        ⟨before, after, List.append_assoc .., hFirst,
          by omega⟩
    · simp at h
  · rintro ⟨before, after, rfl, hFirst, hLast⟩
    rw [if_pos (by omega), Option.bind_eq_some_iff]
    refine ⟨part ++ after, ?_, ?_⟩
    · exact
        after?_eq_some_iff.mpr
          ⟨before, (List.append_assoc ..).symm, hFirst⟩
    · exact
        before?_eq_some_iff.mpr ⟨⟨after, rfl⟩, by omega⟩

/-
  Of two first parts of a text, the larger one extends the
  smaller one.
-/
theorem exists_between
    {first rest first' rest' : List Char}
    (hText : first ++ rest = first' ++ rest')
    (hSize : size first ≤ size first') :
    ∃ middle,
      first' = first ++ middle ∧ rest = middle ++ rest' := by
  rcases List.append_eq_append_iff.mp hText with
    ⟨middle, hFirst, hRest⟩ | ⟨middle, hFirst, hRest⟩
  · exact ⟨middle, hFirst, hRest⟩
  · have hMiddle : middle = [] := by
      have hSum := size_append first' middle
      rw [← hFirst] at hSum
      exact size_eq_zero_iff.mp (by omega)
    subst hMiddle
    refine ⟨[], ?_, ?_⟩
    · rw [hFirst, List.append_nil, List.append_nil]
    · exact hRest.symm

/- Two cuts of a text at one offset are the same. -/
theorem append_inj
    {first rest first' rest' : List Char}
    (hText : first ++ rest = first' ++ rest')
    (hSize : size first = size first') :
    first = first' ∧ rest = rest' := by
  rcases exists_between hText (by omega) with
    ⟨middle, hFirst, hRest⟩
  have hSum := size_append first middle
  rw [← hFirst] at hSum
  have hMiddle : middle = [] := by
    apply size_eq_zero_iff.mp
    omega
  rw [hMiddle, List.append_nil] at hFirst
  rw [hMiddle, List.nil_append] at hRest
  exact ⟨hFirst.symm, hRest⟩

/- A slice that ends within the first of two texts is its. -/
theorem slice?_append_left_iff
    {start last : Nat}
    {first second part : List Char}
    (hLast : last ≤ size first) :
    slice? start last (first ++ second) = some part ↔
      slice? start last first = some part := by
  rw [slice?_eq_some_iff, slice?_eq_some_iff]
  constructor
  · rintro ⟨before, after, hText, hFrom, hSum⟩
    rcases exists_between hText (by
        rw [size_append]
        omega) with
      ⟨middle, hFirst, -⟩
    exact ⟨before, middle, hFirst.symm, hFrom, hSum⟩
  · rintro ⟨before, after, rfl, hFrom, hSum⟩
    exact
      ⟨before, after ++ second, (List.append_assoc ..).symm,
        hFrom, hSum⟩

/- A slice from the second of two texts is its. -/
theorem slice?_append_right_iff
    {start last : Nat}
    {first second part : List Char} :
    slice? (start + size first) (last + size first)
        (first ++ second) = some part ↔
      slice? start last second = some part := by
  rw [slice?_eq_some_iff, slice?_eq_some_iff]
  constructor
  · rintro ⟨before, after, hText, hFrom, hSum⟩
    rw [List.append_assoc] at hText
    rcases exists_between hText.symm (by omega) with
      ⟨middle, hBefore, hSecond⟩
    have hSize := size_append first middle
    rw [← hBefore] at hSize
    refine
      ⟨middle, after, ?_, by omega, by omega⟩
    rw [List.append_assoc, hSecond]
  · rintro ⟨before, after, rfl, hFrom, hSum⟩
    refine
      ⟨first ++ before, after, by simp, ?_, ?_⟩
    · rw [size_append]
      omega
    · rw [size_append]
      omega

------------------------------------------------------------
-- Search
------------------------------------------------------------

/- A pattern stands where it is found. -/
theorem exists_of_firstIndexOf?
    {pattern text : List Char}
    {index : Nat}
    (h : firstIndexOf? pattern text = some index) :
    ∃ before after, before ++ pattern ++ after = text ∧
      size before = index := by
  induction text generalizing index with
  | nil => simp [firstIndexOf?] at h
  | cons c text ih =>
      rw [firstIndexOf?] at h
      split at h
      · rename_i hPattern
        rcases List.isPrefixOf_iff_prefix.mp hPattern with
          ⟨after, hAfter⟩
        exact ⟨[], after, hAfter, by simpa [size] using h⟩
      · rcases Option.map_eq_some_iff.mp h with
          ⟨inner, hInner, rfl⟩
        rcases ih hInner with ⟨before, after, rfl, rfl⟩
        exact ⟨c :: before, after, rfl, rfl⟩

/-
  A pattern that stands somewhere is found there or earlier.
-/
theorem firstIndexOf?_le
    {pattern before after : List Char}
    (hPattern : pattern ≠ []) :
    ∃ index, index ≤ size before ∧
      firstIndexOf? pattern (before ++ pattern ++ after) =
        some index := by
  induction before with
  | nil =>
      rcases List.exists_cons_of_ne_nil hPattern with
        ⟨c, tail, rfl⟩
      refine ⟨0, Nat.zero_le _, ?_⟩
      rw [List.nil_append, List.cons_append, firstIndexOf?,
        if_pos]
      exact
        List.isPrefixOf_iff_prefix.mpr (List.prefix_append ..)
  | cons c before ih =>
      rcases ih with ⟨index, hLe, hIndex⟩
      rw [List.cons_append, List.cons_append, firstIndexOf?]
      split
      · exact ⟨0, Nat.zero_le _, rfl⟩
      · refine ⟨c.utf8Size + index, ?_, by rw [hIndex]; rfl⟩
        simp only [size]
        omega

/- A pattern stands where it is found last. -/
theorem exists_of_lastIndexOf?
    {pattern text : List Char}
    {index : Nat}
    (h : lastIndexOf? pattern text = some index) :
    ∃ before after, before ++ pattern ++ after = text ∧
      size before = index := by
  induction text generalizing index with
  | nil => simp [lastIndexOf?] at h
  | cons c text ih =>
      rw [lastIndexOf?] at h
      cases hLater : lastIndexOf? pattern text with
      | some later =>
          rw [hLater, Option.some.injEq] at h
          rcases ih hLater with ⟨before, after, rfl, rfl⟩
          exact ⟨c :: before, after, rfl, h⟩
      | none =>
          simp only [hLater] at h
          split at h
          · rename_i hPattern
            rcases List.isPrefixOf_iff_prefix.mp hPattern with
              ⟨after, hAfter⟩
            exact ⟨[], after, hAfter, Option.some.inj h⟩
          · simp at h

/-
  A pattern that stands somewhere is found last there or
  later.
-/
theorem le_lastIndexOf?
    {pattern before after : List Char}
    (hPattern : pattern ≠ []) :
    ∃ index, size before ≤ index ∧
      lastIndexOf? pattern (before ++ pattern ++ after) =
        some index := by
  induction before with
  | nil =>
      rcases List.exists_cons_of_ne_nil hPattern with
        ⟨c, tail, rfl⟩
      rw [List.nil_append, List.cons_append, lastIndexOf?]
      cases lastIndexOf? (c :: tail) (tail ++ after) with
      | some later =>
          exact ⟨_, Nat.zero_le _, rfl⟩
      | none =>
          refine ⟨0, Nat.zero_le _, ?_⟩
          apply if_pos
          apply List.isPrefixOf_iff_prefix.mpr
          exact List.prefix_append ..
  | cons c before ih =>
      rcases ih with ⟨index, hLe, hIndex⟩
      refine ⟨c.utf8Size + index, ?_, ?_⟩
      · simp only [size]
        omega
      · rw [List.cons_append, List.cons_append, lastIndexOf?,
          hIndex]

end Text

end DottedRef
