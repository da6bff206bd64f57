import DottedRef.Proofs.Text.Cuts
import DottedRef.Text.Position
import Mathlib.Order.Bounds.Defs

/-
  This file proves where the characters that start before an
  offset end: at the least usable offset that is not before
  it, or at the end of the text if the offset is past that.

  Key definitions include:
    * `Text.IsCeiling`

  Key theorems include:
    * `Text.exists_startedBefore_append`
    * `Text.startedBefore_size`
    * `Text.isCeiling_size_startedBefore`
    * `Text.startedBefore_of_isOffset`
-/

namespace DottedRef

namespace Text

------------------------------------------------------------
-- Characters Before an Offset
------------------------------------------------------------

/- No character starts before the start. -/
@[simp] theorem startedBefore_zero
    (text : List Char) :
    startedBefore 0 text = [] := by
  cases text <;> rfl

/- The characters before an offset are a first part. -/
theorem exists_startedBefore_append
    (offset : Nat)
    (text : List Char) :
    ∃ rest, startedBefore offset text ++ rest = text := by
  induction text generalizing offset with
  | nil => exact ⟨[], rfl⟩
  | cons c text ih =>
      rw [startedBefore]
      split
      · exact ⟨c :: text, rfl⟩
      · rcases ih (offset - c.utf8Size) with ⟨rest, hRest⟩
        exact ⟨rest, congrArg (c :: ·) hRest⟩

/- A first part holds the characters before its end. -/
theorem startedBefore_size
    (first last : List Char) :
    startedBefore (size first) (first ++ last) = first := by
  induction first with
  | nil => exact startedBefore_zero last
  | cons c first ih =>
      have hPos := c.utf8Size_pos
      rw [List.cons_append, startedBefore, size,
        if_neg (by omega), Nat.add_sub_cancel_left, ih]

/- What comes behind an offset plays no part. -/
theorem startedBefore_append_of_le
    {offset : Nat}
    {first : List Char}
    (last : List Char)
    (hLe : offset ≤ size first) :
    startedBefore offset (first ++ last) =
      startedBefore offset first := by
  induction first generalizing offset with
  | nil =>
      rw [size] at hLe
      rw [Nat.le_zero.mp hLe, startedBefore_zero,
        startedBefore_zero]
  | cons c first ih =>
      rw [size] at hLe
      rw [List.cons_append, startedBefore, startedBefore,
        ih (by omega)]

/- The characters before an offset fit into the text. -/
theorem size_startedBefore_le_size
    (offset : Nat)
    (text : List Char) :
    size (startedBefore offset text) ≤ size text := by
  rcases exists_startedBefore_append offset text with
    ⟨rest, hRest⟩
  have hSize := size_append (startedBefore offset text) rest
  rw [hRest] at hSize
  omega

/- They reach the offset unless the text ends before it. -/
theorem min_le_size_startedBefore
    (offset : Nat)
    (text : List Char) :
    min offset (size text) ≤
      size (startedBefore offset text) := by
  induction text generalizing offset with
  | nil => exact Nat.min_le_right ..
  | cons c text ih =>
      have hRest := ih (offset - c.utf8Size)
      rw [startedBefore]
      split
      · omega
      · simp only [size]
        omega

------------------------------------------------------------
-- The Next Usable Offset
------------------------------------------------------------

/-
  The least usable offset that is not before a given one. An
  offset past the end counts as the end.
-/
def IsCeiling
    (offset : Nat)
    (text : List Char)
    (next : Nat) : Prop :=
  IsLeast
    {place : Nat | isOffset place text ∧
      min offset (size text) ≤ place} next

/-
  The characters that start before an offset end at the least
  usable offset that is not before it.
-/
theorem isCeiling_size_startedBefore
    (offset : Nat)
    (text : List Char) :
    IsCeiling offset text
      (size (startedBefore offset text)) := by
  constructor
  · refine ⟨?_, min_le_size_startedBefore offset text⟩
    rcases exists_startedBefore_append offset text with
      ⟨rest, hRest⟩
    exact isOffset_iff.mpr ⟨_, rest, hRest, rfl⟩
  · rintro place ⟨hPlace, hLe⟩
    by_cases hPast : size text ≤ place
    · have hFits := size_startedBefore_le_size offset text
      omega
    · -- What comes behind the other place is never looked at.
      rcases isOffset_iff.mp hPlace with
        ⟨first, rest, rfl, rfl⟩
      rw [startedBefore_append_of_le rest (by omega)]
      exact size_startedBefore_le_size offset first

/- The characters before a usable offset end there. -/
theorem startedBefore_of_isOffset
    {offset : Nat}
    {text : List Char}
    (h : isOffset offset text) :
    size (startedBefore offset text) = offset := by
  rcases isOffset_iff.mp h with ⟨first, rest, rfl, rfl⟩
  rw [startedBefore_size]

end Text

end DottedRef
