import DottedRef.Proofs.LoadError.Lines

/-
  This file proves that the offset of a line and a column
  takes back what a syntax error reports after a number of
  bytes, and that the search for it, which goes from line feed
  to line feed, never leaves the source.

  Key definitions include:
    * `IsLineStart`
    * `strictLineStart?`
    * `strictByteOffset?`

  Key theorems include:
    * `IsLineStart.unique`
    * `strictLineStart?_line`
    * `strictLineStart?_eq`
    * `exists_strictByteOffset?`
    * `Json.Fault.locate_here`
    * `byteOffset_of_isLineStart`
    * `byteOffset_inverts_locate`
-/

namespace DottedRef

------------------------------------------------------------
-- The Line of an Index
------------------------------------------------------------

/-
  The line in which an index stands starts at the start of the
  source or behind a line feed, and there is no line feed from
  there up to the index.
-/
def IsLineStart
    (source : List UInt8)
    (start index : Nat) : Prop :=
  start ≤ index ∧
    (start = 0 ∨
      source[start - 1]? = some (Utf8.ascii '\n')) ∧
    ∀ offset < index, start ≤ offset →
      source[offset]? ≠ some (Utf8.ascii '\n')

instance
    (source : List UInt8)
    (start index : Nat) :
    Decidable (IsLineStart source start index) := by
  unfold IsLineStart
  infer_instance

namespace IsLineStart

variable {source : List UInt8}
variable {start other index : Nat}

/- The start of the line of an index is not before another. -/
theorem le
    (h : IsLineStart source start index)
    (hOther : IsLineStart source other index) :
    other ≤ start := by
  rcases h with ⟨-, -, hPlain⟩
  rcases hOther with ⟨hIndex, hOpens, -⟩
  rcases hOpens with rfl | hFeed
  · exact Nat.zero_le start
  · -- The line feed in front of it would be part of the line.
    apply Nat.le_of_not_lt
    intro hPast
    exact hPlain (other - 1) (by omega) (by omega) hFeed

/- An index stands in one line only. -/
theorem unique
    (h : IsLineStart source start index)
    (hOther : IsLineStart source other index) :
    start = other :=
  Nat.le_antisymm (hOther.le h) (h.le hOther)

end IsLineStart

/-
  Whole lines lead to the start of a line, which holds what
  follows without a line feed.
-/
theorem IsLines.isLineStart
    {count index : Nat}
    {lines rest source : List UInt8}
    (hLines : IsLines count lines)
    (hRest : Utf8.ascii '\n' ∉ rest)
    (hParts : lines ++ rest = source.take index) :
    IsLineStart source lines.length
      (lines.length + rest.length) := by
  have hSource :
      source = lines ++ (rest ++ source.drop index) :=
    (append_append_drop hParts).symm
  refine ⟨Nat.le_add_right _ _, ?_, ?_⟩
  · rcases List.eq_nil_or_concat lines with
      rfl | ⟨first, byte, rfl⟩
    · exact Or.inl rfl
    · right
      rw [List.concat_eq_append] at hLines hSource ⊢
      have hByte : byte = Utf8.ascii '\n' :=
        hLines.2 byte List.getLast?_concat
      rw [hSource, hByte]
      simp
  · intro offset hOffset hStart
    rw [hSource, List.getElem?_append_right hStart,
      List.getElem?_append_left (by omega)]
    intro hFeed
    exact hRest (List.mem_of_getElem? hFeed)

------------------------------------------------------------
-- The Search for a Line
------------------------------------------------------------

/- The lines after the first one are those of the rest. -/
theorem lineStart?_line
    {line : List UInt8}
    (hLine : Utf8.ascii '\n' ∉ line)
    (count : Nat)
    (source : List UInt8) :
    lineStart? (count + 1)
        (line ++ Utf8.ascii '\n' :: source) =
      (lineStart? count source).map (line.length + 1 + ·) := by
  induction line with
  | nil => rw [List.nil_append, lineStart?, if_pos rfl]; rfl
  | cons byte line ih =>
      have hFeed := (List.ne_of_not_mem_cons hLine).symm
      have hRest := List.not_mem_of_not_mem_cons hLine
      rw [List.cons_append, lineStart?, if_neg hFeed, ih hRest,
        Option.map_map]
      congr 1
      funext start
      simp only [Function.comp_apply, List.length_cons]
      omega

/-
  Leave a number of lines behind, from a start on, by one
  search for a line feed each. There is no result, rather than
  no start, if the rest of the source cannot be cut off.
-/
def strictLineStart?
    (source : List UInt8)
    (lines start : Nat) : Option (Option Nat) :=
  match lines with
  | 0 => some (some start)
  | lines + 1 =>
      if start ≤ source.length then
        match
          (source.drop start).idxOf? (Utf8.ascii '\n')
        with
        | none => some none
        | some index =>
            strictLineStart? source lines (start + (index + 1))
      else
        none

/- The first line feed behind a line is the one that ends it. -/
theorem idxOf?_line
    {line : List UInt8}
    (hLine : Utf8.ascii '\n' ∉ line)
    (source : List UInt8) :
    (line ++ Utf8.ascii '\n' :: source).idxOf?
        (Utf8.ascii '\n') =
      some line.length := by
  have hNone :
      line.findIdx? (· == Utf8.ascii '\n') = none := by
    rw [List.findIdx?_eq_none_iff]
    intro byte hMem
    exact beq_false_of_ne (ne_of_mem_of_not_mem hMem hLine)
  rw [List.idxOf?, List.findIdx?_append, hNone,
    List.findIdx?_cons, if_pos (beq_self_eq_true _)]
  simp

/- One search leads behind the line feed that ends the line. -/
theorem strictLineStart?_line
    {first line rest source : List UInt8}
    (hLine : Utf8.ascii '\n' ∉ line)
    (hParts :
      first ++ (line ++ Utf8.ascii '\n' :: rest) = source)
    (lines : Nat) :
    strictLineStart? source (lines + 1) first.length =
      strictLineStart? source lines
        (first.length + (line.length + 1)) := by
  have hRange : first.length ≤ source.length := by
    rw [← hParts, List.length_append]
    omega
  subst hParts
  rw [strictLineStart?, if_pos hRange, List.drop_left,
    idxOf?_line hLine]

/- A search that finds no line feed is the last one. -/
theorem strictLineStart?_of_not_mem
    {line : List UInt8}
    (hLine : Utf8.ascii '\n' ∉ line)
    (lines : Nat)
    (first : List UInt8) :
    strictLineStart? (first ++ line) (lines + 1) first.length =
      some none := by
  have hRange : first.length ≤ (first ++ line).length := by
    rw [List.length_append]
    omega
  rw [strictLineStart?, if_pos hRange, List.drop_left,
    List.idxOf?_eq_none_iff.mpr hLine]

/-
  The rest of the source can always be cut off, and the search
  leads to the start of the line.
-/
theorem strictLineStart?_eq
    (lines : Nat)
    (first rest : List UInt8) :
    strictLineStart? (first ++ rest) lines first.length =
      some
        ((lineStart? lines rest).map (first.length + ·)) := by
  induction lines generalizing first rest with
  | zero => simp [strictLineStart?, lineStart?]
  | succ lines ih =>
      by_cases hFeed : Utf8.ascii '\n' ∈ rest
      · rcases List.eq_append_cons_of_mem hFeed with
          ⟨line, after, rfl, hLine⟩
        -- What has been searched now ends with the line feed.
        have hWhole :
            first ++ (line ++ Utf8.ascii '\n' :: after) =
              (first ++ line ++ [Utf8.ascii '\n']) ++
                after := by
          simp
        have hStart :
            first.length + (line.length + 1) =
              (first ++ line ++ [Utf8.ascii '\n']).length := by
          simp only [List.length_append, List.length_singleton]
          omega
        rw [strictLineStart?_line hLine rfl, hWhole, hStart, ih,
          lineStart?_line hLine, Option.map_map, ← hStart]
        congr 2
        funext start
        simp only [Function.comp_apply]
        omega
      · have hNone : lineStart? (lines + 1) rest = none := by
          apply lineStart?_eq_none_iff.mpr
          rw [List.count_eq_zero.mpr hFeed]
          exact Nat.succ_pos lines
        rw [strictLineStart?_of_not_mem hFeed, hNone]
        rfl

------------------------------------------------------------
-- Offsets in Words
------------------------------------------------------------

/-
  The offset of a line and a column where numbers are words,
  and a sum that does not fit is reduced by their size. There
  is no result if the source is cut out of range.
-/
def strictByteOffset?
    (size : Nat)
    (source : List UInt8)
    (line column : Nat) : Option Nat := do
  match ← strictLineStart? source (line - 1) 0 with
  | none => return source.length
  | some start =>
      return min ((start + (column - 1)) % size) source.length

/-
  There always is an offset, which is within the source or
  right behind it, and is the computed one as long as the
  column behind the source fits in a word.
-/
theorem exists_strictByteOffset?
    (size : Nat)
    (source : List UInt8)
    (line column : Nat) :
    ∃ offset,
      strictByteOffset? size source line column =
        some offset ∧
      offset ≤ source.length ∧
      (source.count (Utf8.ascii '\n') + 1 < line →
        offset = source.length) ∧
      (column + source.length < size →
        offset = byteOffset source line column) := by
  have hSearch := strictLineStart?_eq (line - 1) [] source
  simp only [List.nil_append, List.length_nil, Nat.zero_add,
    Option.map_id'] at hSearch
  unfold strictByteOffset? byteOffset
  rw [hSearch]
  cases hStart : lineStart? (line - 1) source with
  | none =>
      exact
        ⟨source.length, rfl, Nat.le_refl _, fun _ => rfl,
          fun _ => rfl⟩
  | some start =>
      refine ⟨_, rfl, Nat.min_le_right .., ?_, ?_⟩
      · intro hLine
        have hNone : lineStart? (line - 1) source = none :=
          lineStart?_eq_none_iff.mpr (by omega)
        rw [hStart] at hNone
        exact absurd hNone (Option.some_ne_none start)
      · intro hFits
        have hLe := lineStart?_le hStart
        dsimp only
        rw [Nat.mod_eq_of_lt (by omega)]

------------------------------------------------------------
-- Reported Places
------------------------------------------------------------

/-
  A fault at the bytes that have been read is reported at the
  mark after them.
-/
theorem Json.Fault.locate_here
    {source : List UInt8}
    {index : Nat}
    (hIndex : index ≤ source.length)
    (cause : Cause) :
    (here cause (source.drop index)).locate source =
      ⟨cause, (Mark.after (source.take index)).line,
        (Mark.after (source.take index)).column⟩ := by
  have hRead :
      source.length - (source.drop index).length = index := by
    rw [List.length_drop]
    omega
  simp only [locate, here, hRead, Nat.sub_zero]

section Reports

variable {source : List UInt8}
variable {index : Nat}
variable (hIndex : index ≤ source.length)

include hIndex

/-
  An index stands in a line behind as many whole lines as
  there are line feeds before it, and a mark there counts the
  bytes of its line.
-/
theorem exists_lines_after :
    ∃ lines rest, lines ++ rest = source.take index ∧
      lines.length + rest.length = index ∧
      IsLines ((source.take index).count (Utf8.ascii '\n'))
        lines ∧
      IsLineStart source lines.length index ∧
      Json.Mark.after (source.take index) =
        ⟨(source.take index).count (Utf8.ascii '\n') + 1,
          rest.length⟩ := by
  rcases Json.Mark.after_eq (source.take index) with
    ⟨lines, rest, hParts, hLines, hMark⟩
  have hLength : lines.length + rest.length = index := by
    rw [← List.length_append, hParts,
      List.length_take_of_le hIndex]
  have hRest : Utf8.ascii '\n' ∉ rest := by
    have hCount := hLines.1
    rw [← hParts, List.count_append] at hCount
    apply List.count_eq_zero.mp
    omega
  have hStart := hLines.isLineStart hRest hParts
  rw [hLength] at hStart
  exact ⟨lines, rest, hParts, hLength, hLines, hStart, hMark⟩

/- Every index stands in a line. -/
theorem existsUnique_isLineStart :
    ∃! start, IsLineStart source start index := by
  rcases exists_lines_after hIndex with
    ⟨lines, -, -, -, -, hStart, -⟩
  refine ⟨lines.length, hStart, ?_⟩
  intro other hOther
  exact hOther.unique hStart

section Column

variable {start : Nat}
variable (hStart : IsLineStart source start index)

include hStart

/- A mark counts the line feeds and the bytes of the line. -/
theorem after_of_isLineStart :
    Json.Mark.after (source.take index) =
      ⟨(source.take index).count (Utf8.ascii '\n') + 1,
        index - start⟩ := by
  rcases exists_lines_after hIndex with
    ⟨lines, rest, -, hLength, -, hLines, hMark⟩
  have hColumn : rest.length = index - start := by
    rw [hStart.unique hLines]
    omega
  rw [hMark, hColumn]

/-
  The offset of a place that is counted up to an index is that
  of the last byte before it, or the index if its line holds
  none.
-/
theorem byteOffset_of_isLineStart :
    byteOffset source
        ((source.take index).count (Utf8.ascii '\n') + 1)
        (index - start) =
      if index - start = 0 then index else index - 1 := by
  rcases exists_lines_after hIndex with
    ⟨lines, rest, hParts, hLength, hLines, hFirst, -⟩
  obtain rfl := hStart.unique hFirst
  have hPlace :
      IsPlace source
        ((source.take index).count (Utf8.ascii '\n') + 1)
        (index - lines.length)
        (lines.length + (index - lines.length - 1)) :=
    ⟨_, lines, rest ++ source.drop index,
      append_append_drop hParts, hLines, rfl, rfl⟩
  rw [byteOffset_eq_of_isPlace hPlace]
  split <;> omega

end Column

end Reports

/-
  What is reported after a number of bytes is the line in
  which they end and how many of them it holds, and the offset
  of that place is the last of those bytes, or where they end
  if the line holds none. At any line and column the search
  for the offset cuts nothing out of range, whatever the size
  of words is, and ends within the source or right behind it;
  it ends there if the line does not exist.
-/
theorem byteOffset_inverts_locate
    (source : List UInt8) :
    (∀ index ≤ source.length,
      (∃! start, IsLineStart source start index) ∧
      ∀ start, IsLineStart source start index →
        let line :=
          (source.take index).count (Utf8.ascii '\n') + 1
        let column := index - start
        (∀ cause,
          (Json.Fault.here cause (source.drop index)).locate
              source =
            ⟨cause, line, column⟩) ∧
        byteOffset source line column =
          if column = 0 then index else index - 1) ∧
    ∀ line column,
      byteOffset source line column ≤ source.length ∧
      (source.count (Utf8.ascii '\n') + 1 < line →
        byteOffset source line column = source.length) ∧
      ∀ size, ∃ offset,
        strictByteOffset? size source line column =
          some offset ∧
        offset ≤ source.length ∧
        (source.count (Utf8.ascii '\n') + 1 < line →
          offset = source.length) ∧
        (column + source.length < size →
          offset = byteOffset source line column) := by
  constructor
  · intro index hIndex
    refine ⟨existsUnique_isLineStart hIndex, ?_⟩
    intro start hStart line column
    refine ⟨?_, byteOffset_of_isLineStart hIndex hStart⟩
    intro cause
    rw [Json.Fault.locate_here hIndex,
      after_of_isLineStart hIndex hStart]
  · intro line column
    exact
      ⟨byteOffset_le source line column,
        fun hLine => byteOffset_of_missing hLine column,
        fun size =>
          exists_strictByteOffset? size source line column⟩

/-
  In "a", an empty line and "bc", the third line starts at 3
  with column 0, the end is reported at its column 2, and there
  is no fourth line.
-/
theorem byteOffset_inverts_locate_of_empty_line :
    let source : List UInt8 := [97, 10, 10, 98, 99]
    IsLineStart source 3 3 ∧
      byteOffset source 3 0 = 3 ∧
      IsLineStart source 3 5 ∧
      (Json.Fault.here .endInValue []).locate source =
        ⟨.endInValue, 3, 2⟩ ∧
      byteOffset source 3 2 = 4 ∧
      byteOffset source 4 1 = 5 ∧
      strictByteOffset? UInt64.size source 3 2 = some 4 := by
  intro source
  rcases byteOffset_inverts_locate source with
    ⟨hInverse, hBounds⟩
  have hThird : IsLineStart source 3 3 := by decide
  have hEnd : IsLineStart source 3 5 := by decide
  rcases hInverse 3 (by decide) with ⟨-, hAtThird⟩
  rcases hInverse 5 (by decide) with ⟨-, hAtEnd⟩
  rcases hAtThird 3 hThird with ⟨-, hFirst⟩
  rcases hAtEnd 3 hEnd with ⟨hReport, hLast⟩
  rcases hBounds 4 1 with ⟨-, hMissing, -⟩
  rcases hBounds 3 2 with ⟨-, -, hWords⟩
  rcases hWords UInt64.size with ⟨offset, hSome, -, -, hExact⟩
  refine
    ⟨hThird, hFirst, hEnd, hReport _, hLast,
      hMissing (by decide), ?_⟩
  rw [hSome, hExact (by decide)]
  exact congrArg some hLast

end DottedRef
