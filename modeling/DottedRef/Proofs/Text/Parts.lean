import DottedRef.Text

/-
  This file relates the parts of a text between separators to
  the text: parts without separators are found again in the
  text that they make up, and a cut through a text cuts at
  most one of its parts.

  Main declarations:
    * `Text.split_eq_splitOn`
    * `Text.split_intercalate`
    * `Text.intercalate_split`
    * `Text.mem_of_mem_split`
    * `Text.exists_split_append`
    * `Text.exists_of_split_eq`
    * `Text.eq_nil_of_split_eq`
    * `Text.split_ended_append`
-/

namespace DottedRef

namespace Text

/- There is at least one part. -/
theorem split_ne_nil
    (separator : Char)
    (text : List Char) :
    split separator text ≠ [] := by
  cases text with
  | nil => simp [split]
  | cons c text =>
      rw [split]
      split
      · simp
      · split <;> simp

/- The parts of a text are those that the library finds. -/
theorem split_eq_splitOn
    (separator : Char)
    (text : List Char) :
    split separator text = text.splitOn separator := by
  induction text with
  | nil => rfl
  | cons c text ih =>
      rw [split, List.splitOn_cons_eq_if_modifyHead, ← ih]
      by_cases hSeparator : c = separator
      · rw [if_pos hSeparator, if_pos (by simpa using hSeparator)]
      · rw [if_neg hSeparator, if_neg (by simpa using hSeparator)]
        cases hParts : split separator text with
        | nil => exact absurd hParts (split_ne_nil separator text)
        | cons part parts => rfl

/- Parts without separators are found again. -/
theorem split_intercalate
    {separator : Char}
    {parts : List (List Char)}
    (hParts : ∀ part ∈ parts, separator ∉ part)
    (hNonempty : parts ≠ []) :
    split separator ([separator].intercalate parts) =
      parts := by
  rw [split_eq_splitOn]
  exact List.splitOn_intercalate separator hParts hNonempty

/- A text is made up of its parts. -/
theorem intercalate_split
    (separator : Char)
    (text : List Char) :
    [separator].intercalate (split separator text) = text := by
  rw [split_eq_splitOn]
  exact List.intercalate_splitOn separator

/- Parts hold what the text holds, and no separators. -/
theorem mem_of_mem_split
    {separator c : Char}
    {text part : List Char}
    (hPart : part ∈ split separator text)
    (hMem : c ∈ part) :
    c ∈ text ∧ c ≠ separator := by
  induction text generalizing part with
  | nil =>
      rw [split, List.mem_singleton] at hPart
      rw [hPart] at hMem
      simp at hMem
  | cons d text ih =>
      rw [split] at hPart
      by_cases hSeparator : d = separator
      · rw [if_pos hSeparator] at hPart
        rcases List.mem_cons.mp hPart with rfl | hPart
        · simp at hMem
        · rcases ih hPart hMem with ⟨hText, hNe⟩
          exact ⟨List.mem_cons_of_mem _ hText, hNe⟩
      · rw [if_neg hSeparator] at hPart
        cases hParts : split separator text with
        | nil => exact absurd hParts (split_ne_nil separator text)
        | cons first parts =>
            rw [hParts] at ih hPart
            rcases List.mem_cons.mp hPart with rfl | hPart
            · rcases List.mem_cons.mp hMem with rfl | hMem
              · exact ⟨List.mem_cons_self, hSeparator⟩
              · rcases ih List.mem_cons_self hMem with
                  ⟨hText, hNe⟩
                exact ⟨List.mem_cons_of_mem _ hText, hNe⟩
            · rcases ih (List.mem_cons_of_mem _ hPart) hMem with
                ⟨hText, hNe⟩
              exact ⟨List.mem_cons_of_mem _ hText, hNe⟩

/-
  A cut goes through one part: what comes before the cut ends
  with the first half of it and what comes after starts with
  the second.
-/
theorem exists_split_append
    (separator : Char)
    (first last : List Char) :
    ∃ parts half other more,
      split separator first = parts ++ [half] ∧
        split separator last = other :: more ∧
          split separator (first ++ last) =
            parts ++ (half ++ other) :: more := by
  rcases List.exists_cons_of_ne_nil
      (split_ne_nil separator last) with
    ⟨other, more, hLast⟩
  induction first with
  | nil => exact ⟨[], [], other, more, rfl, hLast, hLast⟩
  | cons c first ih =>
      rcases ih with
        ⟨parts, half, other, more, hFirst, hLast, hBoth⟩
      rw [List.cons_append, split, split]
      by_cases hSeparator : c = separator
      · rw [if_pos hSeparator, if_pos hSeparator, hFirst, hBoth]
        exact ⟨[] :: parts, half, other, more, rfl, hLast, rfl⟩
      · rw [if_neg hSeparator, if_neg hSeparator, hFirst, hBoth]
        cases parts with
        | nil =>
            exact ⟨[], c :: half, other, more, rfl, hLast, rfl⟩
        | cons part parts =>
            exact
              ⟨(c :: part) :: parts, half, other, more,
                rfl, hLast, rfl⟩

------------------------------------------------------------
-- Ended Parts
------------------------------------------------------------

/- Parts as they stand in a text before another one. -/
def ended
    (separator : Char)
    (parts : List (List Char)) : List Char :=
  parts.flatMap (· ++ [separator])

/- The first part ends with the first separator. -/
theorem ended_cons
    (separator : Char)
    (part : List Char)
    (parts : List (List Char)) :
    ended separator (part :: parts) =
      part ++ separator :: ended separator parts := by
  simp [ended]

/- What is ended ends with a separator. -/
theorem getLast?_ended
    (separator : Char)
    (parts : List (List Char)) :
    ended separator parts = [] ∨
      (ended separator parts).getLast? = some separator := by
  rcases List.eq_nil_or_concat parts with
    rfl | ⟨first, part, rfl⟩
  · exact Or.inl rfl
  · right
    simp [ended, List.concat_eq_append]

/- Every ended part comes with one separator. -/
theorem count_ended
    {separator : Char}
    {parts : List (List Char)}
    (hParts : ∀ part ∈ parts, separator ∉ part) :
    (ended separator parts).count separator =
      parts.length := by
  induction parts with
  | nil => rfl
  | cons part parts ih =>
      rcases List.forall_mem_cons.mp hParts with
        ⟨hFirst, hRest⟩
      rw [ended_cons, List.count_append,
        List.count_eq_zero_of_not_mem hFirst,
        List.count_cons_self, ih hRest, Nat.zero_add,
        List.length_cons]

/- There is a separator behind every part but the last. -/
theorem length_split
    (separator : Char)
    (text : List Char) :
    (split separator text).length =
      text.count separator + 1 := by
  induction text with
  | nil => rfl
  | cons c text ih =>
      rw [split]
      by_cases hSeparator : c = separator
      · rw [if_pos hSeparator, List.length_cons, ih,
          hSeparator, List.count_cons_self]
      · rw [if_neg hSeparator, List.count_cons_of_ne hSeparator,
          ← ih]
        cases hParts : split separator text with
        | nil => exact absurd hParts (split_ne_nil separator text)
        | cons part parts => rfl

/- There is a part behind every number of separators. -/
theorem exists_split_eq_of_le
    {separator : Char}
    {text : List Char}
    {index : Nat}
    (h : index ≤ text.count separator) :
    ∃ before part more,
      split separator text = before ++ part :: more ∧
        before.length = index := by
  have hLength := length_split separator text
  have hIndex : index < (split separator text).length := by
    omega
  refine
    ⟨(split separator text).take index,
      (split separator text)[index],
      (split separator text).drop (index + 1), ?_, ?_⟩
  · rw [List.getElem_cons_drop, List.take_append_drop]
  · rw [List.length_take]
    omega

/- The parts before one of them stand ended before it. -/
theorem intercalate_append_cons
    (separator : Char)
    (before : List (List Char))
    (part : List Char)
    (more : List (List Char)) :
    [separator].intercalate (before ++ part :: more) =
      ended separator before ++
        [separator].intercalate (part :: more) := by
  induction before with
  | nil => rfl
  | cons first before ih =>
      have hNext :
          ∃ next rest, before ++ part :: more = next :: rest :=
        List.exists_cons_of_ne_nil (by simp)
      rcases hNext with ⟨next, rest, hNext⟩
      rw [List.cons_append, hNext, List.intercalate_cons_cons,
        ← hNext, ih, ended_cons]
      simp

/- No part of a text holds a separator. -/
theorem not_mem_of_split_eq
    {separator : Char}
    {text part : List Char}
    {before more : List (List Char)}
    (h : split separator text = before ++ part :: more) :
    (∀ other ∈ before, separator ∉ other) ∧
      separator ∉ part := by
  have hParts :
      ∀ other ∈ before ++ part :: more, separator ∉ other := by
    intro other hOther hMem
    rw [← h] at hOther
    exact (mem_of_mem_split hOther hMem).2 rfl
  refine ⟨?_, hParts part (by simp)⟩
  intro other hOther
  exact hParts other (List.mem_append_left _ hOther)

/-
  A part of a text stands behind those before it, each with
  its separator, and goes on up to a separator or the end.
-/
theorem exists_of_split_eq
    {separator : Char}
    {text part : List Char}
    {before more : List (List Char)}
    (h : split separator text = before ++ part :: more) :
    ∃ after, ended separator before ++ (part ++ after) = text ∧
      ∀ c ∈ after.head?, c = separator := by
  have hText := intercalate_split separator text
  rw [h, intercalate_append_cons] at hText
  cases more with
  | nil =>
      refine ⟨[], ?_, by simp⟩
      rw [← hText]
      simp
  | cons next more =>
      refine
        ⟨separator :: [separator].intercalate (next :: more),
          ?_, by simp⟩
      rw [← hText, List.intercalate_cons_cons]
      simp

/- A text is its last part behind all others, ended. -/
theorem ended_append_of_split_eq
    {separator : Char}
    {text part : List Char}
    {before : List (List Char)}
    (h : split separator text = before ++ [part]) :
    ended separator before ++ part = text := by
  have hText := intercalate_split separator text
  rw [h, intercalate_append_cons] at hText
  simpa using hText

/- Nothing stands behind a separator at the end of a text. -/
theorem eq_nil_of_split_eq
    {separator : Char}
    {text part : List Char}
    {before : List (List Char)}
    (h : split separator text = before ++ [part])
    (hEnd : text = [] ∨ text.getLast? = some separator) :
    part = [] := by
  have hText := ended_append_of_split_eq h
  rcases hEnd with hNil | hLast
  · rw [hNil] at hText
    exact (List.append_eq_nil_iff.mp hText).2
  · rcases List.eq_nil_or_concat part with
      hNil | ⟨first, c, hConcat⟩
    · exact hNil
    · have hMem : c ∈ part := by
        simp [hConcat]
      have hSeparator : c = separator := by
        rw [← hText, hConcat] at hLast
        simpa using hLast
      rw [hSeparator] at hMem
      exact absurd hMem (not_mem_of_split_eq h).2

/- Ended parts are found again before another part. -/
theorem split_ended_append
    {separator : Char}
    {before : List (List Char)}
    {part : List Char}
    (hBefore : ∀ other ∈ before, separator ∉ other)
    (hPart : separator ∉ part) :
    split separator (ended separator before ++ part) =
      before ++ [part] := by
  have hText :
      [separator].intercalate (before ++ [part]) =
        ended separator before ++ part := by
    rw [intercalate_append_cons]
    simp
  rw [← hText]
  apply split_intercalate
  · intro other hOther
    rcases List.mem_append.mp hOther with hOther | hOther
    · exact hBefore other hOther
    · rw [List.mem_singleton.mp hOther]
      exact hPart
  · simp

end Text

end DottedRef
