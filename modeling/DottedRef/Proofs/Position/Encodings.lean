import DottedRef.Proofs.Position.Inverse

/-
  This file compares positions in scalar values and in UTF-16
  code units. Both name the same line, and in UTF-16 a line
  has one more unit for every character from U+10000 on. In
  either encoding a later offset has a later position.

  Key definitions include:
    * `Position.Precedes`

  Key theorems include:
    * `Position.sum_map_utf16Width`
    * `Position.precedes_foldl_advance`
    * `Position.ofOffset_precedes`
    * `Position.ofOffsetUtf16_precedes`
    * `Position.encodings_agree`
-/

namespace DottedRef

namespace Position

------------------------------------------------------------
-- Order
------------------------------------------------------------

/- An earlier line, or an earlier place in the same line. -/
def Precedes
    (first second : Position) : Prop :=
  first.line < second.line ∨
    first.line = second.line ∧
      first.character < second.character

instance
    (first second : Position) :
    Decidable (Precedes first second) := by
  unfold Precedes
  infer_instance

/- Positions before one another are ordered. -/
theorem Precedes.trans
    {first second third : Position}
    (h : first.Precedes second)
    (h' : second.Precedes third) :
    first.Precedes third := by
  unfold Precedes at h h' ⊢
  omega

/- No position is before itself. -/
theorem Precedes.ne
    {first second : Position}
    (h : first.Precedes second) :
    first ≠ second := by
  rintro rfl
  unfold Precedes at h
  omega

section Steps

variable {width : Char → Nat}
variable (hWidth : ∀ c, 0 < width c)

include hWidth

/- Every character moves a position on. -/
theorem precedes_advance
    (position : Position)
    (c : Char) :
    position.Precedes (advance width position c) := by
  have hPos := hWidth c
  unfold advance
  split
  · exact Or.inl (Nat.lt_succ_self _)
  · exact Or.inr ⟨rfl, Nat.lt_add_of_pos_right hPos⟩

/- Going through some text moves a position on. -/
theorem precedes_foldl_advance
    {text : List Char}
    (hText : text ≠ [])
    (position : Position) :
    position.Precedes (text.foldl (advance width) position) := by
  induction text generalizing position with
  | nil => exact absurd rfl hText
  | cons c text ih =>
      have hStep := precedes_advance hWidth position c
      rw [List.foldl_cons]
      by_cases hRest : text = []
      · subst hRest
        exact hStep
      · exact hStep.trans (ih hRest _)

/- Of two usable offsets, the later has the later position. -/
theorem foldl_startedBefore_precedes
    {text : List Char}
    {first second : Nat}
    (hFirst : Text.isOffset first text)
    (hSecond : Text.isOffset second text)
    (hLt : first < second) :
    ((Text.startedBefore first text).foldl
        (advance width) start).Precedes
      ((Text.startedBefore second text).foldl
        (advance width) start) := by
  rcases Text.isOffset_iff.mp hFirst with
    ⟨head, rest, rfl, rfl⟩
  rcases Text.isOffset_iff.mp hSecond with
    ⟨longer, rest', hText, rfl⟩
  rcases Text.exists_between hText.symm (by omega) with
    ⟨middle, rfl, hRest⟩
  have hMiddle : middle ≠ [] := by
    rintro rfl
    rw [List.append_nil] at hLt
    exact Nat.lt_irrefl _ hLt
  rw [Text.startedBefore_size, ← hText,
    Text.startedBefore_size, List.foldl_append]
  exact precedes_foldl_advance hWidth hMiddle _

end Steps

/- In scalar values, later offsets have later positions. -/
theorem ofOffset_precedes
    {text : String}
    {first second : Nat}
    (hFirst : Text.isOffset first text.toList)
    (hSecond : Text.isOffset second text.toList)
    (hLt : first < second) :
    (ofOffset text first).Precedes (ofOffset text second) :=
  foldl_startedBefore_precedes (fun _ => Nat.one_pos)
    hFirst hSecond hLt

/- In UTF-16, later offsets have later positions. -/
theorem ofOffsetUtf16_precedes
    {text : String}
    {first second : Nat}
    (hFirst : Text.isOffset first text.toList)
    (hSecond : Text.isOffset second text.toList)
    (hLt : first < second) :
    (ofOffsetUtf16 text first).Precedes
      (ofOffsetUtf16 text second) := by
  apply foldl_startedBefore_precedes _ hFirst hSecond hLt
  intro c
  unfold Text.utf16Width
  split
  · exact Nat.one_pos
  · exact Nat.two_pos

------------------------------------------------------------
-- Surrogate Pairs
------------------------------------------------------------

/-
  In UTF-16, a line has one unit for every character and one
  more for every character from U+10000 on.
-/
theorem sum_map_utf16Width
    (line : List Char) :
    (line.map Text.utf16Width).sum =
      line.length + line.countP (0x10000 ≤ ·.toNat) := by
  induction line with
  | nil => rfl
  | cons c line ih =>
      rw [List.map_cons, List.sum_cons, ih, List.countP_cons,
        List.length_cons, Text.utf16Width]
      by_cases hWide : 0x10000 ≤ c.toNat
      · rw [if_neg (by omega), if_pos (by simpa using hWide)]
        omega
      · rw [if_pos (by omega), if_neg (by simpa using hWide)]
        omega

------------------------------------------------------------
-- Agreement
------------------------------------------------------------

/-
  Both encodings name the line that the first usable offset
  not before a given one lies in. In UTF-16 the character is
  greater by the number of characters from U+10000 on between
  the start of the line and that offset. In both, a later
  usable offset has a later position, so that no two of them
  share one.
-/
theorem encodings_agree
    (text : String) :
    (∀ offset, ∃ before half after,
      before ++ half ++ after = text.toList ∧
        Text.IsCeiling offset text.toList
          (Text.size (before ++ half)) ∧
        (before = [] ∨ before.getLast? = some '\n') ∧
        '\n' ∉ half ∧
        (ofOffset text offset).line = before.count '\n' ∧
        (ofOffsetUtf16 text offset).line =
          (ofOffset text offset).line ∧
        (ofOffsetUtf16 text offset).character =
          (ofOffset text offset).character +
            half.countP (0x10000 ≤ ·.toNat)) ∧
    ∀ first second,
      Text.isOffset first text.toList →
        Text.isOffset second text.toList →
          (first < second →
            (ofOffset text first).Precedes
                (ofOffset text second) ∧
              (ofOffsetUtf16 text first).Precedes
                (ofOffsetUtf16 text second)) ∧
          (first ≠ second →
            ofOffset text first ≠ ofOffset text second ∧
              ofOffsetUtf16 text first ≠
                ofOffsetUtf16 text second) := by
  constructor
  · intro offset
    rcases exists_split_ofOffset text offset with
      ⟨before, half, rest, more, hSplit, hStarted, hScalar,
        hUtf16⟩
    rcases Text.not_mem_of_split_eq hSplit with
      ⟨hLines, hLine⟩
    rcases
      Text.exists_startedBefore_append offset text.toList with
      ⟨after, hText⟩
    have hCeiling :=
      Text.isCeiling_size_startedBefore offset text.toList
    rw [hStarted] at hText hCeiling
    rw [hScalar, hUtf16]
    refine
      ⟨Text.ended '\n' before, half, after, hText, hCeiling,
        Text.getLast?_ended '\n' before, ?_, ?_, rfl, ?_⟩
    · intro hFeed
      exact hLine (List.mem_append_left _ hFeed)
    · exact (Text.count_ended hLines).symm
    · exact sum_map_utf16Width half
  · intro first second hFirst hSecond
    constructor
    · intro hLt
      exact
        ⟨ofOffset_precedes hFirst hSecond hLt,
          ofOffsetUtf16_precedes hFirst hSecond hLt⟩
    · intro hNe
      rcases Nat.lt_or_gt_of_ne hNe with hLt | hGt
      · exact
          ⟨(ofOffset_precedes hFirst hSecond hLt).ne,
            (ofOffsetUtf16_precedes hFirst hSecond hLt).ne⟩
      · exact
          ⟨(ofOffset_precedes hSecond hFirst hGt).ne.symm,
            (ofOffsetUtf16_precedes
              hSecond hFirst hGt).ne.symm⟩

/-
  Behind a character of two units, the position in UTF-16 is
  one further, and both are before the next line.
-/
theorem encodings_agree_of_emoji :
    let text := "a😀é\nb"
    (ofOffset text 5).Precedes (ofOffset text 8) ∧
      (ofOffsetUtf16 text 5).Precedes (ofOffsetUtf16 text 8) ∧
      ofOffset text 5 ≠ ofOffset text 8 ∧
      ofOffset text 5 = ⟨0, 2⟩ ∧
      ofOffsetUtf16 text 5 = ⟨0, 3⟩ := by
  intro text
  rcases
    (encodings_agree text).2 5 8 (by decide) (by decide) with
    ⟨hOrder, hApart⟩
  rcases hOrder (by decide) with ⟨hScalar, hUtf16⟩
  rcases hApart (by decide) with ⟨hNe, -⟩
  exact ⟨hScalar, hUtf16, hNe, by decide, by decide⟩

end Position

end DottedRef
