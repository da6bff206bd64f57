import DottedRef.Proofs.Position.Lines
import DottedRef.Proofs.Text.Ceiling

/-
  This file proves that positions in scalar values and offsets
  are inverse to each other. An offset that is not usable is
  rounded up on the way to its position and back, and a
  character past the end of its line is moved to the end.

  Main declarations:
    * `Position.exists_split_ofOffset`
    * `Position.offset?_ofOffset`
    * `Position.exists_offset?_eq`
    * `Position.offset_position_inverse`
-/

namespace DottedRef

namespace Position

/- Every character of a line counts once. -/
theorem sum_map_scalarWidth
    (line : List Char) :
    (line.map Text.scalarWidth).sum = line.length := by
  induction line with
  | nil => rfl
  | cons c line ih =>
      rw [List.map_cons, List.sum_cons, ih, List.length_cons,
        Text.scalarWidth, Nat.add_comm]

------------------------------------------------------------
-- From Offsets to Positions
------------------------------------------------------------

/-
  An offset cuts the line it lies in behind the characters
  that start before it. The lines before that line and the
  first half of it make up the position of the offset.
-/
theorem exists_split_ofOffset
    (text : String)
    (offset : Nat) :
    ∃ before half rest more,
      Text.split '\n' text.toList =
          before ++ (half ++ rest) :: more ∧
        Text.startedBefore offset text.toList =
          Text.ended '\n' before ++ half ∧
        ofOffset text offset = ⟨before.length, half.length⟩ ∧
        ofOffsetUtf16 text offset =
          ⟨before.length, (half.map Text.utf16Width).sum⟩ := by
  rcases Text.exists_startedBefore_append offset text.toList
    with ⟨last, hText⟩
  rcases
    Text.exists_split_append '\n'
      (Text.startedBefore offset text.toList) last with
    ⟨before, half, rest, more, hFirst, -, hBoth⟩
  rw [hText] at hBoth
  refine
    ⟨before, half, rest, more, hBoth,
      (Text.ended_append_of_split_eq hFirst).symm, ?_, ?_⟩
  · unfold ofOffset
    rw [foldl_advance_of_split_eq hFirst, sum_map_scalarWidth]
  · exact foldl_advance_of_split_eq hFirst

/-
  The position of an offset leads back to the end of the
  characters that start before it.
-/
theorem offset?_ofOffset
    (text : String)
    (offset : Nat) :
    offset? text (ofOffset text offset) =
      some
        (Text.size
          (Text.startedBefore offset text.toList)) := by
  rcases exists_split_ofOffset text offset with
    ⟨before, half, rest, more, hSplit, hBefore, hPosition, -⟩
  unfold offset?
  rw [hPosition, Text.offsetOf?_of_split_eq hSplit,
    List.take_left, hBefore]

------------------------------------------------------------
-- From Positions to Offsets
------------------------------------------------------------

/-
  Every character of a line that exists has a usable offset,
  and it is the position of that offset unless it lies past
  the end of the line.
-/
theorem exists_offset?_eq
    {text : String}
    {line : Nat}
    (hLine : line ≤ text.toList.count '\n')
    (character : Nat) :
    ∃ offset part,
      offset? text ⟨line, character⟩ = some offset ∧
        Text.isOffset offset text.toList ∧
        (Text.split '\n' text.toList)[line]? = some part ∧
        ofOffset text offset =
          ⟨line, min character part.length⟩ := by
  rcases Text.exists_split_eq_of_le hLine with
    ⟨before, part, more, hSplit, rfl⟩
  rcases Text.not_mem_of_split_eq hSplit with
    ⟨hBefore, hPart⟩
  rcases Text.exists_of_split_eq hSplit with
    ⟨after, hText, -⟩
  let head := Text.ended '\n' before ++ part.take character
  have hHead : head ++ (part.drop character ++ after) =
      text.toList := by
    rw [← hText, List.append_assoc,
      ← List.append_assoc (part.take character),
      List.take_append_drop]
  have hSplitHead :
      Text.split '\n' head =
        before ++ [part.take character] := by
    apply Text.split_ended_append hBefore
    intro hFeed
    exact hPart (List.mem_of_mem_take hFeed)
  refine
    ⟨Text.size head, part, Text.offsetOf?_of_split_eq hSplit,
      Text.isOffset_iff.mpr ⟨head, _, hHead, rfl⟩, ?_, ?_⟩
  · rw [hSplit, List.getElem?_append_right (Nat.le_refl _)]
    simp
  · unfold ofOffset
    rw [← hHead, Text.startedBefore_size,
      foldl_advance_of_split_eq hSplitHead,
      sum_map_scalarWidth, List.length_take]

------------------------------------------------------------
-- Inverse Functions
------------------------------------------------------------

/-
  The position of an offset leads to the least usable offset
  that is not before it, which is the offset itself if that is
  usable. A position leads to no offset exactly if the text
  has too few line feeds for its line, and else to a usable
  one whose position it is, with a character past the end of
  the line moved to the end.
-/
theorem offset_position_inverse
    (text : String) :
    (∀ offset, ∃ next,
      offset? text (ofOffset text offset) = some next ∧
        Text.IsCeiling offset text.toList next ∧
        (Text.isOffset offset text.toList → next = offset)) ∧
    ∀ line character,
      (offset? text ⟨line, character⟩ = none ↔
        text.toList.count '\n' < line) ∧
      (line ≤ text.toList.count '\n' →
        ∃ offset part,
          offset? text ⟨line, character⟩ = some offset ∧
            Text.isOffset offset text.toList ∧
            (Text.split '\n' text.toList)[line]? =
              some part ∧
            ofOffset text offset =
              ⟨line, min character part.length⟩) := by
  constructor
  · intro offset
    exact
      ⟨_, offset?_ofOffset text offset,
        Text.isCeiling_size_startedBefore offset text.toList,
        Text.startedBefore_of_isOffset⟩
  · intro line character
    refine ⟨Text.offsetOf?_eq_none_iff, ?_⟩
    intro hLine
    exact exists_offset?_eq hLine character

/-
  Behind the `é` of two lines there is a usable offset, and a
  character past the end of the second line is that end.
-/
theorem offset_position_inverse_of_two_lines :
    let text := "é\nab"
    offset? text (ofOffset text 2) = some 2 ∧
      ∃ offset, offset? text ⟨1, 9⟩ = some offset ∧
        ofOffset text offset = ⟨1, 2⟩ := by
  intro text
  rcases offset_position_inverse text with
    ⟨hOffsets, hPositions⟩
  rcases hOffsets 2 with ⟨next, hNext, -, hUsable⟩
  rcases (hPositions 1 9).2 (by decide) with
    ⟨offset, part, hOffset, -, hPart, hBack⟩
  have hLine :
      (Text.split '\n' text.toList)[1]? = some ['a', 'b'] := by
    decide
  rw [hLine, Option.some.injEq] at hPart
  refine ⟨?_, offset, hOffset, ?_⟩
  · rw [hNext, hUsable (by decide)]
  · rw [hBack, ← hPart]
    rfl

/- An offset within a character is rounded up. -/
example :
    let text := "é\nab"
    offset? text (ofOffset text 1) = some 2 := by
  decide

end Position

end DottedRef
