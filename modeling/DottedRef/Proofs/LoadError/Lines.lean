import DottedRef.LoadError
import Mathlib.Data.List.Induction

/-
  This file states what the lines in front of a line are and
  proves that the search for the start of a line measures
  them, that a mark counts them, and that the place of every
  syntax error is one of the text it was found in.

  Key definitions include:
    * `IsLines`
    * `IsPlace`

  Key theorems include:
    * `lineStart?_eq_some_iff`
    * `lineStart?_eq_none_iff`
    * `byteOffset_eq_of_isPlace`
    * `Json.Mark.after_eq`
    * `Json.Fault.exists_isPlace_locate`
-/

namespace DottedRef

------------------------------------------------------------
-- Whole Lines
------------------------------------------------------------

/-
  Bytes are a number of whole lines if they hold as many line
  feeds and nothing comes after the last one.
-/
def IsLines
    (count : Nat)
    (lines : List UInt8) : Prop :=
  lines.count (Utf8.ascii '\n') = count ∧
    ∀ byte ∈ lines.getLast?, byte = Utf8.ascii '\n'

/- No lines are no bytes. -/
theorem isLines_zero_iff
    {lines : List UInt8} :
    IsLines 0 lines ↔ lines = [] := by
  constructor
  · rintro ⟨hCount, hLast⟩
    rcases List.eq_nil_or_concat lines with
      hNil | ⟨first, byte, hConcat⟩
    · exact hNil
    · rw [List.concat_eq_append] at hConcat
      subst hConcat
      rw [List.getLast?_concat] at hLast
      rw [hLast byte rfl, List.count_eq_zero] at hCount
      exact absurd List.mem_concat_self hCount
  · rintro rfl
    exact ⟨rfl, by simp⟩

/- A line feed in front is one line more, another byte none. -/
theorem isLines_cons_iff
    {count : Nat}
    {byte : UInt8}
    {lines : List UInt8} :
    IsLines (count + 1) (byte :: lines) ↔
      IsLines
        (if byte = Utf8.ascii '\n' then count else count + 1)
        lines := by
  have hCounts :
      (byte :: lines).count (Utf8.ascii '\n') = count + 1 ↔
        lines.count (Utf8.ascii '\n') =
          if byte = Utf8.ascii '\n' then count
          else count + 1 := by
    by_cases hFeed : byte = Utf8.ascii '\n'
    · rw [if_pos hFeed, hFeed, List.count_cons_self,
        Nat.succ_inj]
    · rw [if_neg hFeed, List.count_cons_of_ne hFeed]
  unfold IsLines
  rw [hCounts]
  apply and_congr_right
  intro hCount
  cases lines with
  | nil =>
      -- A byte by itself is whole lines only if it closes one.
      have hFeed : byte = Utf8.ascii '\n' := by
        by_contra hNot
        rw [if_neg hNot, List.count_nil] at hCount
        omega
      simp [hFeed]
  | cons next lines => rw [List.getLast?_cons_cons]

/- The first line starts where the source does. -/
theorem lineStart?_zero_eq_some_iff
    {start : Nat}
    {source : List UInt8} :
    lineStart? 0 source = some start ↔
      ∃ lines rest, lines ++ rest = source ∧
        IsLines 0 lines ∧ lines.length = start := by
  rw [lineStart?, Option.some.injEq]
  constructor
  · rintro rfl
    exact ⟨[], source, rfl, isLines_zero_iff.mpr rfl, rfl⟩
  · rintro ⟨lines, rest, -, hLines, rfl⟩
    rw [isLines_zero_iff.mp hLines]
    rfl

/- A line starts behind the lines in front of it. -/
theorem lineStart?_eq_some_iff
    {line start : Nat}
    {source : List UInt8} :
    lineStart? line source = some start ↔
      ∃ lines rest, lines ++ rest = source ∧
        IsLines line lines ∧ lines.length = start := by
  induction source generalizing line start with
  | nil =>
      cases line with
      | zero => exact lineStart?_zero_eq_some_iff
      | succ line =>
          simp only [lineStart?, List.append_eq_nil_iff,
            reduceCtorEq, false_iff]
          rintro ⟨lines, rest, ⟨rfl, rfl⟩, ⟨hCount, -⟩, -⟩
          simp at hCount
  | cons byte source ih =>
      cases line with
      | zero => exact lineStart?_zero_eq_some_iff
      | succ line =>
          rw [lineStart?, Option.map_eq_some_iff]
          constructor
          · rintro ⟨inner, hInner, rfl⟩
            rcases ih.mp hInner with
              ⟨lines, rest, rfl, hLines, rfl⟩
            refine
              ⟨byte :: lines, rest, rfl,
                isLines_cons_iff.mpr hLines, ?_⟩
            rw [List.length_cons, Nat.add_comm]
          · rintro ⟨lines, rest, hParts, hLines, rfl⟩
            cases lines with
            | nil => simp [IsLines] at hLines
            | cons first lines =>
                rw [List.cons_append, List.cons.injEq]
                  at hParts
                rcases hParts with ⟨rfl, rfl⟩
                refine ⟨lines.length, ih.mpr ?_, ?_⟩
                · exact
                    ⟨lines, rest, rfl,
                      isLines_cons_iff.mp hLines, rfl⟩
                · rw [List.length_cons, Nat.add_comm]

/- A line has no start if there are not as many line feeds. -/
theorem lineStart?_eq_none_iff
    {line : Nat}
    {source : List UInt8} :
    lineStart? line source = none ↔
      source.count (Utf8.ascii '\n') < line := by
  induction source generalizing line with
  | nil => cases line <;> simp [lineStart?]
  | cons byte source ih =>
      cases line with
      | zero => simp [lineStart?]
      | succ line =>
          rw [lineStart?, Option.map_eq_none_iff, ih]
          by_cases hFeed : byte = Utf8.ascii '\n'
          · rw [if_pos hFeed, hFeed, List.count_cons_self,
              Nat.add_lt_add_iff_right]
          · rw [if_neg hFeed, List.count_cons_of_ne hFeed]

/- A line starts within the source or right behind it. -/
theorem lineStart?_le
    {line start : Nat}
    {source : List UInt8}
    (h : lineStart? line source = some start) :
    start ≤ source.length := by
  rcases lineStart?_eq_some_iff.mp h with
    ⟨lines, rest, rfl, -, rfl⟩
  rw [List.length_append]
  omega

------------------------------------------------------------
-- Places
------------------------------------------------------------

/-
  A line and a column, both counted from 1, are the place of a
  byte: there are that many lines less one in front of it, and
  the column counts from there. Column 0 is the start of the
  line as well.
-/
def IsPlace
    (source : List UInt8)
    (line column index : Nat) : Prop :=
  ∃ count lines rest, lines ++ rest = source ∧
    IsLines count lines ∧ count + 1 = line ∧
    lines.length + (column - 1) = index

/- An offset is computed as the place, within the source. -/
theorem byteOffset_eq_of_isPlace
    {source : List UInt8}
    {line column index : Nat}
    (h : IsPlace source line column index) :
    byteOffset source line column =
      min index source.length := by
  rcases h with
    ⟨count, lines, rest, hParts, hLines, rfl, rfl⟩
  have hStart :
      lineStart? count source = some lines.length :=
    lineStart?_eq_some_iff.mpr
      ⟨lines, rest, hParts, hLines, rfl⟩
  rw [byteOffset, Nat.add_sub_cancel, hStart]

/- A computed offset is never past the source. -/
theorem byteOffset_le
    (source : List UInt8)
    (line column : Nat) :
    byteOffset source line column ≤ source.length := by
  unfold byteOffset
  cases lineStart? (line - 1) source with
  | none => exact Nat.le_refl _
  | some start => exact Nat.min_le_right ..

/- The offset in a line that does not exist is the end. -/
theorem byteOffset_of_missing
    {source : List UInt8}
    {line : Nat}
    (hLine : source.count (Utf8.ascii '\n') + 1 < line)
    (column : Nat) :
    byteOffset source line column = source.length := by
  have hNone : lineStart? (line - 1) source = none :=
    lineStart?_eq_none_iff.mpr (by omega)
  rw [byteOffset, hNone]

/- A place is that of one byte only. -/
theorem IsPlace.unique
    {source : List UInt8}
    {line column index other : Nat}
    (h : IsPlace source line column index)
    (hOther : IsPlace source line column other) :
    index = other := by
  rcases h with
    ⟨count, lines, rest, hParts, hLines, rfl, rfl⟩
  rcases hOther with
    ⟨count', lines', rest', hParts', hLines', hCount, rfl⟩
  obtain rfl : count' = count := Nat.succ.inj hCount
  have hStart := lineStart?_eq_some_iff.mpr
    ⟨lines, rest, hParts, hLines, rfl⟩
  have hStart' := lineStart?_eq_some_iff.mpr
    ⟨lines', rest', hParts', hLines', rfl⟩
  rw [hStart, Option.some.injEq] at hStart'
  rw [hStart']

/- What cuts a first part of a source cuts the source. -/
theorem append_append_drop
    {index : Nat}
    {lines rest source : List UInt8}
    (hParts : lines ++ rest = source.take index) :
    lines ++ (rest ++ source.drop index) = source := by
  rw [← List.append_assoc, hParts, List.take_append_drop]

------------------------------------------------------------
-- Marks
------------------------------------------------------------

namespace Json

/-
  A mark counts the line feeds that have been read, and the
  bytes behind the last of them.
-/
theorem Mark.after_eq
    (bytes : List UInt8) :
    ∃ lines rest, lines ++ rest = bytes ∧
      IsLines (bytes.count (Utf8.ascii '\n')) lines ∧
      after bytes =
        ⟨bytes.count (Utf8.ascii '\n') + 1, rest.length⟩ := by
  induction bytes using List.reverseRecOn with
  | nil => exact ⟨[], [], rfl, isLines_zero_iff.mpr rfl, rfl⟩
  | append_singleton bytes byte ih =>
      rcases ih with ⟨lines, rest, hParts, hLines, hMark⟩
      have hStep :
          after (bytes ++ [byte]) =
            (after bytes).advance byte := by
        unfold after
        rw [List.foldl_append]
        rfl
      rw [hStep, hMark, advance, List.count_append]
      by_cases hFeed : byte = Utf8.ascii '\n'
      · -- All that has been read is whole lines now.
        rw [if_pos hFeed, hFeed, List.count_singleton_self]
        refine
          ⟨bytes ++ [Utf8.ascii '\n'], [],
            List.append_nil _, ⟨?_, ?_⟩, rfl⟩
        · rw [List.count_append, List.count_singleton_self]
        · simp
      · have hNone : [byte].count (Utf8.ascii '\n') = 0 :=
          List.count_cons_of_ne hFeed
        rw [if_neg hFeed, hNone, Nat.add_zero]
        refine ⟨lines, rest ++ [byte], ?_, hLines, ?_⟩
        · rw [← List.append_assoc, hParts]
        · rw [List.length_append, List.length_singleton]

/-
  The place of a fault is one of the text or of its end,
  wherever in the text the fault was found and however far
  back it is reported.
-/
theorem Fault.exists_isPlace_locate
    (fault : Fault)
    (source : List UInt8) :
    ∃ index, index ≤ source.length ∧
      IsPlace source (fault.locate source).line
        (fault.locate source).column index := by
  let seen := source.length - fault.unread
  rcases Mark.after_eq (source.take seen) with
    ⟨lines, rest, hParts, hLines, hMark⟩
  have hLocate :
      fault.locate source =
        ⟨fault.cause,
          (source.take seen).count (Utf8.ascii '\n') + 1,
          rest.length - fault.back⟩ := by
    unfold locate
    rw [hMark]
  have hLength := congrArg List.length hParts
  rw [List.length_append, List.length_take] at hLength
  rw [hLocate]
  exact
    ⟨lines.length + (rest.length - fault.back - 1), by omega,
      _, lines, rest ++ source.drop seen,
      append_append_drop hParts, hLines, rfl, rfl⟩

/- The place of a syntax error is one of the text. -/
theorem Node.exists_isPlace_of_parse
    {source : List UInt8}
    {error : SyntaxError}
    (h : Node.parse source = .error error) :
    ∃ index, index ≤ source.length ∧
      IsPlace source error.line error.column index := by
  unfold Node.parse at h
  cases hRead : readText source with
  | ok node => simp [hRead] at h
  | error fault =>
      simp only [hRead, Except.error.injEq] at h
      rw [← h]
      exact fault.exists_isPlace_locate source

end Json

end DottedRef
