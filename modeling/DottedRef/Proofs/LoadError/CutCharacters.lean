import Mathlib
import DottedRef.Proofs.LoadError.Spans

/-
  This file proves which character the span of a syntax error
  marks in a source that is a text. A byte that starts a
  character or belongs to one of four bytes is marked itself.
  A later byte of a character of two or three bytes is not:
  what comes before it is measured with a replacement
  character of three bytes in place of the one cut short, so
  that the span lies behind the character.

  Key definitions include:
    * `Text.ContinuesShort`

  Key theorems include:
    * `Span.Marks.of_measured`
    * `Span.Marks.of_continuesShort`
    * `Document.parse_fault_span`
    * `Document.parse_fault_span_not_exact`
-/

namespace DottedRef

/-
  A byte is one of the later bytes of a character that starts
  at an offset and has less than four bytes.
-/
def Text.ContinuesShort
    (start index : Nat)
    (text : List Char) : Prop :=
  ∃ before c after, before ++ c :: after = text ∧
    Text.size before = start ∧ start < index ∧
      index < start + c.utf8Size ∧ c.utf8Size < 4

------------------------------------------------------------
-- Measured Spans
------------------------------------------------------------

namespace Span.Marks

variable {span : Span}
variable {index : Nat}
variable {text : List Char}

/-
  Behind a later byte of a short character a measured span
  marks what comes three bytes after the character's start.
-/
theorem of_continuesShort
    {start : Nat}
    (hSpan :
      span.Marks
        (Text.size
          (Utf8.decodeLossy ((Utf8.encode text).take index)))
        text)
    (hShort : Text.ContinuesShort start index text) :
    span.Marks (start + 3) text := by
  rcases hShort with
    ⟨before, c, after, rfl, rfl, hLow, hHigh, -⟩
  rw [Utf8.decodeLossy_take_encode_cut hLow hHigh,
    Text.size_append] at hSpan
  exact hSpan

/- Such a span is not that of the character itself. -/
theorem not_of_continuesShort
    {start : Nat}
    (hSpan : span.Marks (start + 3) text)
    (hShort : Text.ContinuesShort start index text) :
    ¬ span.Marks index text := by
  rcases hShort with
    ⟨before, c, after, hText, rfl, hLow, hHigh, hSmall⟩
  intro hMarks
  have hOwn := hMarks.unique
    (.character hText (Nat.le_of_lt hLow) hHigh)
  have hNext :
      Text.isOffset (Text.size before + c.utf8Size) text := by
    apply Text.isOffset_iff.mpr
    refine ⟨before ++ [c], after, ?_, ?_⟩
    · rw [List.append_assoc, List.singleton_append, hText]
    · simp [Text.size_append, Text.size]
  have hPast := hSpan.le_offset hNext (by omega)
  have hPos := c.utf8Size_pos
  rw [hOwn] at hPast
  dsimp only at hPast
  omega

/-
  Every other byte, and the end of the text, is marked by the
  span that is measured up to it.
-/
theorem of_measured
    (hSpan :
      span.Marks
        (Text.size
          (Utf8.decodeLossy ((Utf8.encode text).take index)))
        text)
    (hIndex : index ≤ Text.size text)
    (hWhole :
      ∀ start, ¬ Text.ContinuesShort start index text) :
    span.Marks index text := by
  rcases exists_marks index text with ⟨own, hOwn⟩
  have hUsable :
      ∀ {before after}, before ++ after = text →
        Text.size before = index → span.Marks index text := by
    rintro before after rfl rfl
    rwa [Utf8.decodeLossy_take_encode] at hSpan
  cases hOwn with
  | finish hPast =>
      exact
        hUsable (List.append_nil text)
          (Nat.le_antisymm hPast hIndex)
  | @character before after c hText hLow hHigh =>
      by_cases hStart : Text.size before = index
      · exact hUsable hText hStart
      · have hLow : Text.size before < index := by omega
        have hLong : 4 ≤ c.utf8Size := by
          apply Nat.le_of_not_lt
          intro hSmall
          exact
            hWhole _
              ⟨before, c, after, hText, rfl, hLow, hHigh,
                hSmall⟩
        -- The replacement ends within the four bytes.
        rw [← hText,
          Utf8.decodeLossy_take_encode_cut hLow hHigh,
          Text.size_append, hText] at hSpan
        have hFour := c.utf8Size_le_four
        have hReplaced : Text.size [Utf8.replacement] = 3 := rfl
        have hSame := hSpan.unique
          (.character hText (Nat.le_add_right ..) (by omega))
        rw [hSame]
        exact
          .character hText (Nat.le_of_lt hLow) hHigh

end Span.Marks

------------------------------------------------------------
-- Sources That Are Texts
------------------------------------------------------------

/-
  The span of the error for a text that is no document, with
  the byte that the reported line and column stand for. It
  marks that byte unless the byte is a later one of a
  character of two or three bytes, and what comes three bytes
  after the start of the character if it is.
-/
theorem Document.parse_fault_span
    {name text : String}
    {error : LoadError}
    (hRejected :
      Document.parse name (Utf8.encode text.toList) =
        .error error) :
    ∃ (fault : Json.SyntaxError) (index : Nat) (span : Span),
      Json.Node.parse (Utf8.encode text.toList) =
        .error fault ∧
      IsPlace (Utf8.encode text.toList) fault.line
        fault.column index ∧
      index ≤ Text.size text.toList ∧
      error = .malformed name text span fault.message ∧
      (span.Marks index text.toList ↔
        ∀ start,
          ¬ Text.ContinuesShort start index text.toList) ∧
      ∀ start,
        Text.ContinuesShort start index text.toList →
          span.Marks (start + 3) text.toList := by
  unfold Document.parse at hRejected
  cases hParse :
      Json.Node.parse (Utf8.encode text.toList) with
  | ok root => simp [hParse] at hRejected
  | error fault =>
      simp only [hParse, Except.error.injEq] at hRejected
      rcases Json.Node.exists_isPlace_of_parse hParse with
        ⟨index, hIndex, hPlace⟩
      have hSpan :=
        faultSpan_marks (Utf8.encode text.toList) fault.line
          fault.column
      have hRaw :
          rawOffset (Utf8.encode text.toList) fault.line
            fault.column = index := by
        have hOffset := byteOffset_eq_of_isPlace hPlace
        rcases hPlace with ⟨count, -, -, -, -, hLine, -⟩
        rw [rawOffset, if_neg (by omega), hOffset]
        exact Nat.min_eq_left hIndex
      rw [hRaw, Utf8.decodeLossy_encode] at hSpan
      rw [Utf8.length_encode] at hIndex
      refine
        ⟨fault, index,
          faultSpan (Utf8.encode text.toList) fault.line
            fault.column,
          rfl, hPlace, hIndex, ?_, ⟨?_, ?_⟩, ?_⟩
      · rw [← hRejected, LoadError.ofSyntaxError,
          Utf8.decodeLossy_encode, String.ofList_toList]
      · intro hMarks start hShort
        exact
          (hSpan.of_continuesShort hShort).not_of_continuesShort
            hShort hMarks
      · exact hSpan.of_measured hIndex
      · intro start hShort
        exact hSpan.of_continuesShort hShort

/-
  A string that is left open behind an `é` is reported at the
  second byte of that character.
-/
theorem Json.Node.parse_open_accent :
    Json.Node.parse (Utf8.encode "\"é".toList) =
        .error ⟨.endInString, 1, 3⟩ ∧
      IsPlace (Utf8.encode "\"é".toList) 1 3 2 := by
  constructor
  · cbv
  · exact ⟨0, [], _, rfl, isLines_zero_iff.mpr rfl, rfl, rfl⟩

/- Its span is the end of the text. -/
theorem Document.parse_open_accent :
    Document.parse "p.json" (Utf8.encode "\"é".toList) =
      .error
        (.malformed "p.json" "\"é" ⟨3, 0⟩
          (Json.SyntaxError.mk .endInString 1 3).message) := by
  cbv

/-
  The span marks the fourth byte behind the start of the text
  and not the reported one.
-/
theorem Document.parse_fault_span_of_accent :
    (∃ error,
      Document.parse "p.json" (Utf8.encode "\"é".toList) =
        .error error) ∧
      Text.ContinuesShort 1 2 "\"é".toList ∧
      (Span.mk 3 0).Marks 4 "\"é".toList ∧
      ¬ (Span.mk 3 0).Marks 2 "\"é".toList := by
  have hShort : Text.ContinuesShort 1 2 "\"é".toList :=
    ⟨['"'], 'é', [], by decide⟩
  rcases Json.Node.parse_open_accent with ⟨hParse, hPlace⟩
  rcases parse_fault_span parse_open_accent with
    ⟨fault, index, span, hFault, hIndex, -, hError, hExact,
      hMarks⟩
  rw [hParse, Except.error.injEq] at hFault
  subst hFault
  obtain rfl := hIndex.unique hPlace
  simp only [LoadError.malformed.injEq, true_and, and_true]
    at hError
  subst hError
  refine
    ⟨⟨_, parse_open_accent⟩, hShort, hMarks 1 hShort, ?_⟩
  intro hOwn
  exact hExact.mp hOwn 1 hShort

/-
  It is not so that the span of every error marks the byte
  that the reported line and column stand for.
-/
theorem Document.parse_fault_span_not_exact :
    ¬ ∀ (name text : String) (error : LoadError),
      Document.parse name (Utf8.encode text.toList) =
          .error error →
        ∃ (fault : Json.SyntaxError) (index : Nat)
            (span : Span),
          Json.Node.parse (Utf8.encode text.toList) =
            .error fault ∧
          IsPlace (Utf8.encode text.toList) fault.line
            fault.column index ∧
          error = .malformed name text span fault.message ∧
          span.Marks index text.toList := by
  intro hAll
  rcases Json.Node.parse_open_accent with ⟨hParse, hPlace⟩
  rcases hAll _ _ _ parse_open_accent with
    ⟨fault, index, span, hFault, hIndex, hError, hMarks⟩
  rw [hParse, Except.error.injEq] at hFault
  subst hFault
  obtain rfl := hIndex.unique hPlace
  have hText : ['"'] ++ 'é' :: [] = "\"é".toList := rfl
  have hOwn : (Span.mk 1 2).Marks 2 "\"é".toList :=
    .character hText (by decide) (by decide)
  rw [hMarks.unique hOwn] at hError
  simp at hError

end DottedRef
