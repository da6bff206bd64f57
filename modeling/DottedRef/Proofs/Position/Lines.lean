import DottedRef.Proofs.Text.Parts
import DottedRef.Text.Position
import Mathlib.Algebra.GroupWithZero.Nat

/-
  This file describes positions by the lines of a text. Going
  through a text leads to as many lines as it has ended and to
  the width of the one that it has not, and the offset of a
  position is measured by the lines before it and the first
  characters of its own line.

  Main declarations:
    * `Position.foldl_advance_of_not_mem`
    * `Position.foldl_advance_ended`
    * `Position.foldl_advance_of_split_eq`
    * `Text.offsetOf?_ended`
    * `Text.offsetOf?_of_split_eq`
    * `Text.offsetOf?_eq_none_iff`
-/

namespace DottedRef

------------------------------------------------------------
-- Positions Behind a Text
------------------------------------------------------------

namespace Position

variable {width : Char → Nat}

/- A line feed leads to the start of the next line. -/
theorem advance_feed
    (position : Position) :
    advance width position '\n' = ⟨position.line + 1, 0⟩ :=
  if_pos rfl

/- Any other character leads on in its line. -/
theorem advance_of_ne
    {c : Char}
    (hFeed : c ≠ '\n')
    (position : Position) :
    advance width position c =
      ⟨position.line, position.character + width c⟩ :=
  if_neg hFeed

/- Within a line, a position moves on by its characters. -/
theorem foldl_advance_of_not_mem
    {line : List Char}
    (hLine : '\n' ∉ line)
    (position : Position) :
    line.foldl (advance width) position =
      ⟨position.line,
        position.character + (line.map width).sum⟩ := by
  induction line generalizing position with
  | nil => rfl
  | cons c line ih =>
      have hFeed := (List.ne_of_not_mem_cons hLine).symm
      have hRest := List.not_mem_of_not_mem_cons hLine
      rw [List.foldl_cons, advance_of_ne hFeed, ih hRest,
        List.map_cons, List.sum_cons, Nat.add_assoc]

/- Ended lines lead to the start of the line after them. -/
theorem foldl_advance_ended
    {lines : List (List Char)}
    (hLines : ∀ line ∈ lines, '\n' ∉ line)
    (count : Nat) :
    (Text.ended '\n' lines).foldl (advance width) ⟨count, 0⟩ =
      ⟨count + lines.length, 0⟩ := by
  induction lines generalizing count with
  | nil => rfl
  | cons line lines ih =>
      rcases List.forall_mem_cons.mp hLines with
        ⟨hFirst, hRest⟩
      rw [Text.ended_cons, List.foldl_append,
        List.foldl_cons, foldl_advance_of_not_mem hFirst,
        advance_feed, ih hRest, List.length_cons]
      simp only [mk.injEq, and_true]
      omega

/-
  A text leads to the line after those that it ends, behind
  the characters of its last line.
-/
theorem foldl_advance_of_split_eq
    {text last : List Char}
    {before : List (List Char)}
    (h : Text.split '\n' text = before ++ [last]) :
    text.foldl (advance width) start =
      ⟨before.length, (last.map width).sum⟩ := by
  rcases Text.not_mem_of_split_eq h with ⟨hBefore, hLast⟩
  rw [← Text.ended_append_of_split_eq h, List.foldl_append,
    start, foldl_advance_ended hBefore,
    foldl_advance_of_not_mem hLast]
  simp

end Position

------------------------------------------------------------
-- Offsets of Positions
------------------------------------------------------------

namespace Text

variable {character : Nat}

/- The lines after a line feed start right behind it. -/
theorem offsetOf?_feed
    (count : Nat)
    (text : List Char) :
    offsetOf? (count + 1) character ('\n' :: text) =
      (offsetOf? count character text).map (1 + ·) := by
  rw [offsetOf?, if_pos rfl]
  rfl

/- Any other character belongs to the line it stands in. -/
theorem offsetOf?_cons_of_ne
    {c : Char}
    (hFeed : c ≠ '\n')
    (count : Nat)
    (text : List Char) :
    offsetOf? (count + 1) character (c :: text) =
      (offsetOf? (count + 1) character text).map
        (c.utf8Size + ·) := by
  rw [offsetOf?, if_neg hFeed]

/- A line that is not ended has no line after it. -/
theorem offsetOf?_of_not_mem
    {line : List Char}
    (hLine : '\n' ∉ line)
    (count : Nat) :
    offsetOf? (count + 1) character line = none := by
  induction line with
  | nil => rfl
  | cons c line ih =>
      have hFeed := (List.ne_of_not_mem_cons hLine).symm
      have hRest := List.not_mem_of_not_mem_cons hLine
      rw [offsetOf?_cons_of_ne hFeed, ih hRest]
      rfl

/- The lines after the first one are those of the rest. -/
theorem offsetOf?_line
    {line : List Char}
    (hLine : '\n' ∉ line)
    (count : Nat)
    (text : List Char) :
    offsetOf? (count + 1) character (line ++ '\n' :: text) =
      (offsetOf? count character text).map
        (size line + 1 + ·) := by
  induction line with
  | nil => exact offsetOf?_feed count text
  | cons c line ih =>
      have hFeed := (List.ne_of_not_mem_cons hLine).symm
      have hRest := List.not_mem_of_not_mem_cons hLine
      rw [List.cons_append, offsetOf?_cons_of_ne hFeed,
        ih hRest, Option.map_map]
      congr 1
      funext offset
      simp only [Function.comp_apply, size]
      omega

/- The lines after ended ones are those of the rest. -/
theorem offsetOf?_ended
    {lines : List (List Char)}
    (hLines : ∀ line ∈ lines, '\n' ∉ line)
    (count : Nat)
    (text : List Char) :
    offsetOf? (lines.length + count) character
        (ended '\n' lines ++ text) =
      (offsetOf? count character text).map
        (size (ended '\n' lines) + ·) := by
  induction lines with
  | nil => simp [ended, size]
  | cons line lines ih =>
      rcases List.forall_mem_cons.mp hLines with
        ⟨hFirst, hRest⟩
      have hFeed : ('\n' : Char).utf8Size = 1 := rfl
      rw [ended_cons, List.append_assoc, List.cons_append,
        List.length_cons, Nat.add_right_comm,
        offsetOf?_line hFirst, ih hRest, Option.map_map]
      congr 1
      funext offset
      simp only [Function.comp_apply, size_append, size, hFeed]
      omega

/-
  A position is measured by the lines before it and the
  characters before it in its own line.
-/
theorem offsetOf?_of_split_eq
    {text part : List Char}
    {before more : List (List Char)}
    (h : split '\n' text = before ++ part :: more) :
    offsetOf? before.length character text =
      some
        (size (ended '\n' before ++ part.take character)) := by
  rcases not_mem_of_split_eq h with ⟨hBefore, hPart⟩
  rcases exists_of_split_eq h with ⟨after, rfl, hAfter⟩
  -- What goes on behind the line starts with a line feed.
  have hLine :
      (part ++ after).takeWhile (· ≠ '\n') = part := by
    rw [List.takeWhile_append_of_pos]
    · cases after with
      | nil => simp
      | cons c after =>
          rw [hAfter c rfl]
          simp
    · intro c hMem
      simp only [ne_eq, decide_not, Bool.not_eq_true',
        decide_eq_false_iff_not]
      rintro rfl
      exact hPart hMem
  have hWithin :
      offsetOf? 0 character (part ++ after) =
        some (size (part.take character)) := by
    rw [offsetOf?, hLine]
  rw [← Nat.add_zero before.length, offsetOf?_ended hBefore,
    hWithin, Option.map_some, size_append]

/- A position has no offset if its line does not exist. -/
theorem offsetOf?_eq_none_iff
    {line : Nat}
    {text : List Char} :
    offsetOf? line character text = none ↔
      text.count '\n' < line := by
  constructor
  · intro hNone
    apply Nat.lt_of_not_le
    intro hLine
    rcases exists_split_eq_of_le hLine with
      ⟨before, part, more, hSplit, rfl⟩
    rw [offsetOf?_of_split_eq hSplit] at hNone
    simp at hNone
  · intro hLine
    have hLength := length_split '\n' text
    rcases List.eq_nil_or_concat (split '\n' text) with
      hNil | ⟨before, last, hSplit⟩
    · exact absurd hNil (split_ne_nil '\n' text)
    rw [List.concat_eq_append] at hSplit
    rw [hSplit, List.length_append, List.length_singleton]
      at hLength
    -- The search reaches the last line and finds no feed in it.
    rcases not_mem_of_split_eq hSplit with ⟨hLines, hLast⟩
    rcases Nat.exists_eq_add_of_lt hLine with ⟨past, rfl⟩
    rw [← Nat.add_right_cancel hLength, Nat.add_assoc,
      ← ended_append_of_split_eq hSplit, offsetOf?_ended hLines,
      offsetOf?_of_not_mem hLast]
    rfl

end Text

end DottedRef
