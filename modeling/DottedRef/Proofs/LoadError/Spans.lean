import DottedRef.Proofs.LoadError.Lines
import DottedRef.Proofs.Text.Cuts
import DottedRef.Proofs.Text.Lossy

/-
  This file states which character of a text holds a byte and
  proves that the span of a syntax error always is that of a
  character of the decoded text or of its end. Behind bytes of
  any kind a byte below U+0080 is marked exactly.

  Key definitions include:
    * `Span.Marks`
    * `Text.stepBack?`
    * `rawOffset`

  Key theorems include:
    * `Span.exists_marks`
    * `Span.Marks.unique`
    * `Span.Marks.le_offset`
    * `Text.stepBack?_eq`
    * `faultSpan_marks`
    * `LoadError.fault_span_safe`
-/

namespace DottedRef

------------------------------------------------------------
-- Characters That Hold a Byte
------------------------------------------------------------

/-
  A span marks the character that holds a byte of a text, or
  the end of the text if the byte is past it.
-/
inductive Span.Marks
    (index : Nat)
    (text : List Char) : Span → Prop
  | character
      {before after : List Char}
      {c : Char}
      (hText : before ++ c :: after = text)
      (hLow : Text.size before ≤ index)
      (hHigh : index < Text.size before + c.utf8Size) :
      Marks index text ⟨Text.size before, c.utf8Size⟩
  | finish
      (hPast : Text.size text ≤ index) :
      Marks index text ⟨Text.size text, 0⟩

namespace Span

/- Every byte is held by a character or past the end. -/
theorem exists_marks
    (index : Nat)
    (text : List Char) :
    ∃ span : Span, span.Marks index text := by
  induction text generalizing index with
  | nil => exact ⟨_, .finish (Nat.zero_le _)⟩
  | cons c text ih =>
      by_cases hFirst : index < c.utf8Size
      · have hText : [] ++ c :: text = c :: text := rfl
        refine ⟨_, .character hText (Nat.zero_le _) ?_⟩
        simpa [Text.size] using hFirst
      · rcases ih (index - c.utf8Size) with ⟨span, hMarks⟩
        cases hMarks with
        | @character before after d hText hLow hHigh =>
            have hText :
                (c :: before) ++ d :: after = c :: text :=
              congrArg (c :: ·) hText
            refine ⟨_, .character hText ?_ ?_⟩ <;>
              simp only [Text.size] <;> omega
        | finish hPast =>
            refine ⟨_, .finish ?_⟩
            simp only [Text.size]
            omega

namespace Marks

variable {span : Span}
variable {index : Nat}
variable {text : List Char}

/- A span that marks a byte starts at a usable offset. -/
theorem exists_cut
    (h : span.Marks index text) :
    ∃ before after, before ++ after = text ∧
      Text.size before = span.offset ∧
      span.length = Text.size (after.take 1) := by
  cases h with
  | character hText _ _ =>
      exact ⟨_, _, hText, rfl, by simp [Text.size]⟩
  | finish _ => exact ⟨text, [], List.append_nil _, rfl, rfl⟩

/- The start of what is marked is a usable offset. -/
theorem isOffset
    (h : span.Marks index text) :
    Text.isOffset span.offset text := by
  rcases h.exists_cut with ⟨before, after, hText, hSize, -⟩
  exact Text.isOffset_iff.mpr ⟨before, after, hText, hSize⟩

/- The character that holds a byte does not start after it. -/
theorem offset_le
    (h : span.Marks index text) :
    span.offset ≤ index := by
  cases h with
  | character _ hLow _ => exact hLow
  | finish hPast => exact hPast

/-
  No usable offset lies between the start of the character
  that holds a byte and the byte.
-/
theorem le_offset
    {offset : Nat}
    (h : span.Marks index text)
    (hOffset : Text.isOffset offset text)
    (hLe : offset ≤ index) :
    offset ≤ span.offset := by
  rcases Text.isOffset_iff.mp hOffset with
    ⟨first, rest, hFirst, rfl⟩
  cases h with
  | @character before after c hText hLow hHigh =>
      apply Nat.le_of_not_lt
      intro hPast
      rcases
        Text.exists_between (hText.trans hFirst.symm)
          (Nat.le_of_lt hPast) with
        ⟨middle, rfl, hMiddle⟩
      cases middle with
      | nil => simp at hPast
      | cons d middle =>
          rw [List.cons_append, List.cons.injEq] at hMiddle
          rcases hMiddle with ⟨rfl, -⟩
          rw [Text.size_append, Text.size] at hLe
          omega
  | finish _ =>
      have hSize := Text.size_append first rest
      rw [hFirst] at hSize
      dsimp only
      omega

/- One span only marks a byte. -/
theorem unique
    {other : Span}
    (h : span.Marks index text)
    (hOther : other.Marks index text) :
    span = other := by
  have hOffset : span.offset = other.offset :=
    Nat.le_antisymm
      (hOther.le_offset h.isOffset h.offset_le)
      (h.le_offset hOther.isOffset hOther.offset_le)
  rcases h.exists_cut with
    ⟨before, after, hText, hSize, hLength⟩
  rcases hOther.exists_cut with
    ⟨before', after', hText', hSize', hLength'⟩
  rcases
    Text.append_inj (hText.trans hText'.symm)
      (hSize.trans (hOffset.trans hSize'.symm)) with
    ⟨-, rfl⟩
  rcases span with ⟨offset, length⟩
  rcases other with ⟨offset', length'⟩
  dsimp only at hOffset hLength hLength'
  rw [hOffset, hLength, hLength']

end Marks

end Span

------------------------------------------------------------
-- Rounding Down
------------------------------------------------------------

namespace Text

/- Rounding down within a character leads to its start. -/
theorem floorOffset_append_cons
    {index : Nat}
    {before after : List Char}
    {c : Char}
    (hLow : size before ≤ index)
    (hHigh : index < size before + c.utf8Size) :
    floorOffset index (before ++ c :: after) =
      size before := by
  induction before generalizing index with
  | nil =>
      simp only [size, Nat.zero_add] at hHigh
      rw [List.nil_append, floorOffset, if_neg (by omega), size]
  | cons d before ih =>
      simp only [size] at hLow hHigh
      rw [List.cons_append, floorOffset, if_pos (by omega),
        ih (by omega) (by omega), size]

/- Rounding down past the end leads to the end. -/
theorem floorOffset_of_size_le
    {index : Nat}
    {text : List Char}
    (hPast : size text ≤ index) :
    floorOffset index text = size text := by
  induction text generalizing index with
  | nil => rfl
  | cons c text ih =>
      simp only [size] at hPast
      rw [floorOffset, if_pos (by omega), ih (by omega), size]

/- Past the end it does not matter how far. -/
theorem floorOffset_min
    (index : Nat)
    (text : List Char) :
    floorOffset (min index (size text)) text =
      floorOffset index text := by
  rcases Nat.le_total index (size text) with hLe | hPast
  · rw [Nat.min_eq_left hLe]
  · rw [Nat.min_eq_right hPast, floorOffset_of_size_le hPast,
      floorOffset_of_size_le (Nat.le_refl _)]

end Text

/-
  Rounding down and measuring the character there marks the
  character that holds a byte.
-/
theorem Span.marks_floorOffset
    (index : Nat)
    (text : List Char) :
    (Span.mk (Text.floorOffset index text)
      (sizeAt text (Text.floorOffset index text))).Marks
        index text := by
  rcases exists_marks index text with ⟨span, hMarks⟩
  have hFloor : Text.floorOffset index text = span.offset := by
    cases hMarks with
    | character hText hLow hHigh =>
        rw [← hText]
        exact Text.floorOffset_append_cons hLow hHigh
    | finish hPast => exact Text.floorOffset_of_size_le hPast
  have hSize : sizeAt text span.offset = span.length := by
    rcases hMarks.exists_cut with
      ⟨before, after, hText, hOffset, hLength⟩
    have hAfter : Text.after? span.offset text = some after :=
      Text.after?_eq_some_iff.mpr ⟨before, hText, hOffset⟩
    rw [sizeAt, hAfter, hLength]
    cases after <;> simp [Text.size]
  rwa [hFloor, hSize]

namespace Text

/- Rounding down goes down. -/
theorem floorOffset_le
    (offset : Nat)
    (text : List Char) :
    floorOffset offset text ≤ offset :=
  (Span.marks_floorOffset offset text).offset_le

/- Rounding down leads to a usable offset. -/
theorem isOffset_floorOffset
    (offset : Nat)
    (text : List Char) :
    isOffset (floorOffset offset text) text :=
  (Span.marks_floorOffset offset text).isOffset

/- Rounding down passes over no usable offset. -/
theorem le_floorOffset
    {offset limit : Nat}
    {text : List Char}
    (hOffset : isOffset offset text)
    (hLe : offset ≤ limit) :
    offset ≤ floorOffset limit text :=
  (Span.marks_floorOffset limit text).le_offset hOffset hLe

/-
  Go back one byte at a time until the offset is usable. There
  is no step back from the start of the text.
-/
def stepBack?
    (text : List Char) : Nat → Option Nat
  | 0 => if isOffset 0 text then some 0 else none
  | offset + 1 =>
      if isOffset (offset + 1) text then
        some (offset + 1)
      else
        stepBack? text offset

/- Stepping back ends where rounding down leads. -/
theorem stepBack?_eq
    (offset : Nat)
    (text : List Char) :
    stepBack? text offset =
      some (floorOffset offset text) := by
  have hStay :
      ∀ {offset : Nat}, isOffset offset text →
        floorOffset offset text = offset := by
    intro offset hOffset
    exact
      Nat.le_antisymm (floorOffset_le offset text)
        (le_floorOffset hOffset (Nat.le_refl _))
  induction offset with
  | zero =>
      have hZero : isOffset 0 text :=
        isOffset_iff.mpr ⟨[], text, rfl, rfl⟩
      rw [stepBack?, if_pos hZero, hStay hZero]
  | succ offset ih =>
      rw [stepBack?]
      split
      · rename_i hOffset
        rw [hStay hOffset]
      · rename_i hOffset
        have hUsable := isOffset_floorOffset (offset + 1) text
        have hNe :
            floorOffset (offset + 1) text ≠ offset + 1 := by
          intro hEq
          rw [hEq] at hUsable
          exact hOffset hUsable
        have hLe := floorOffset_le (offset + 1) text
        rw [ih, Option.some.injEq]
        apply Nat.le_antisymm
        · apply le_floorOffset (isOffset_floorOffset _ _)
          exact Nat.le_succ_of_le (floorOffset_le offset text)
        · exact le_floorOffset hUsable (by omega)

end Text

------------------------------------------------------------
-- The Span of a Syntax Error
------------------------------------------------------------

/-
  The offset in the source that a line and a column stand for.
  Line 0 stands for the start.
-/
def rawOffset
    (source : List UInt8)
    (line column : Nat) : Nat :=
  if line = 0 then 0 else byteOffset source line column

/- The offset is within the source or right behind it. -/
theorem rawOffset_le
    (source : List UInt8)
    (line column : Nat) :
    rawOffset source line column ≤ source.length := by
  unfold rawOffset
  split
  · exact Nat.zero_le _
  · exact byteOffset_le source line column

/-
  The span marks the character of the decoded text that is
  found where the source before the offset ends once it is
  decoded by itself.
-/
theorem faultSpan_marks
    (source : List UInt8)
    (line column : Nat) :
    (faultSpan source line column).Marks
      (Text.size
        (Utf8.decodeLossy
          (source.take (rawOffset source line column))))
      (Utf8.decodeLossy source) :=
  Span.marks_floorOffset _ _

namespace Span.Marks

variable {span : Span}
variable {index : Nat}
variable {text : List Char}

/- The character that is marked holds its own first byte. -/
theorem self
    (h : span.Marks index text) :
    span.Marks span.offset text := by
  cases h with
  | @character before after c hText hLow hHigh =>
      refine .character hText (Nat.le_refl _) ?_
      exact Nat.lt_add_of_pos_right c.utf8Size_pos
  | finish hPast => exact .finish (Nat.le_refl _)

/- What is marked does not reach past the end of the text. -/
theorem offset_add_length_le
    (h : span.Marks index text) :
    span.offset + span.length ≤ Text.size text := by
  cases h with
  | character hText hLow hHigh =>
      rw [← hText, Text.size_append, Text.size]
      dsimp only
      omega
  | finish hPast => exact Nat.le_refl _

/- Nothing is marked at the end of the text only. -/
theorem length_eq_zero_iff
    (h : span.Marks index text) :
    span.length = 0 ↔ span.offset = Text.size text := by
  cases h with
  | @character before after c hText hLow hHigh =>
      have hPos := c.utf8Size_pos
      rw [← hText, Text.size_append, Text.size]
      dsimp only
      omega
  | finish hPast => simp

end Span.Marks

/-
  A byte below U+0080 at the offset is marked where it stands
  in the decoded text, behind the decoded bytes before it.
-/
theorem faultSpan_of_ascii
    {source : List UInt8}
    {line column : Nat}
    {byte : UInt8}
    (hByte :
      source[rawOffset source line column]? = some byte)
    (hAscii : byte.toNat < 0x80) :
    Utf8.decodeLossy source =
        Utf8.decodeLossy
            (source.take (rawOffset source line column)) ++
          Char.ofNat byte.toNat ::
            Utf8.decodeLossy
              (source.drop (rawOffset source line column + 1)) ∧
      faultSpan source line column =
        ⟨Text.size
          (Utf8.decodeLossy
            (source.take (rawOffset source line column))),
          1⟩ := by
  have hMarks := faultSpan_marks source line column
  generalize rawOffset source line column = raw at *
  rcases List.getElem?_eq_some_iff.mp hByte with
    ⟨hRange, hGet⟩
  have hSource :
      source =
        source.take raw ++ byte :: source.drop (raw + 1) := by
    rw [← hGet, List.getElem_cons_drop, List.take_append_drop]
  have hText :=
    Utf8.decodeLossy_append_ascii hAscii (source.take raw)
      (source.drop (raw + 1))
  rw [← hSource] at hText
  have hSize := Utf8.utf8Size_of_ascii hAscii
  refine ⟨hText, ?_⟩
  have hPlace :=
    Span.Marks.character hText.symm (Nat.le_refl _)
      (by omega)
  rw [hMarks.unique hPlace, hSize]

/-
  The span of a syntax error at any place of any bytes: nothing
  is cut out of range, going back to a usable offset does not
  run out of the text, and what is marked is a character of
  the decoded text or its end. A byte below U+0080 is marked
  itself, behind whatever its predecessors are decoded to.
-/
theorem LoadError.fault_span_safe
    (name : String)
    (source : List UInt8)
    (error : Json.SyntaxError) :
    let text := Utf8.decodeLossy source
    let raw := rawOffset source error.line error.column
    let before := Utf8.decodeLossy (source.take raw)
    (∀ line start, lineStart? line source = some start →
      start ≤ source.length) ∧
    raw ≤ source.length ∧
    ∃ span : Span,
      LoadError.ofSyntaxError name source error =
        .malformed name (String.ofList text) span
          error.message ∧
      Text.stepBack? text
          (min (Text.size before) (Text.size text)) =
        some span.offset ∧
      Text.isOffset span.offset text ∧
      span.offset + span.length ≤ Text.size text ∧
      span.Marks span.offset text ∧
      (span.length = 0 ↔ span.offset = Text.size text) ∧
      ∀ byte, source[raw]? = some byte → byte.toNat < 0x80 →
        text =
          before ++ Char.ofNat byte.toNat ::
            Utf8.decodeLossy (source.drop (raw + 1)) ∧
        span = ⟨Text.size before, 1⟩ := by
  intro text raw before
  have hMarks := faultSpan_marks source error.line error.column
  refine
    ⟨fun _ _ => lineStart?_le, rawOffset_le _ _ _,
      faultSpan source error.line error.column, rfl, ?_, ?_,
      hMarks.offset_add_length_le, hMarks.self,
      hMarks.length_eq_zero_iff, ?_⟩
  · rw [Text.stepBack?_eq, Text.floorOffset_min]
    rfl
  · exact Text.isOffset_floorOffset _ _
  · intro byte hByte hAscii
    exact faultSpan_of_ascii hByte hAscii

/-
  The last byte of a string that is left open on the second
  line is marked behind two replacement characters, the second
  of which stands for two bytes.
-/
theorem LoadError.fault_span_safe_of_open_string :
    let source : List UInt8 :=
      [0x0A, 0x22, 0xFF, 0xE3, 0x83, 0x78]
    let error : Json.SyntaxError := ⟨.endInString, 2, 5⟩
    lineStart? 1 source = some 1 ∧ 1 ≤ source.length ∧
      source[rawOffset source 2 5]? = some 0x78 ∧
      (0x78 : UInt8).toNat < 0x80 ∧
      ∃ text,
        LoadError.ofSyntaxError "p.json" source error =
          .malformed "p.json" text ⟨8, 1⟩ error.message := by
  intro source error
  have hStart : lineStart? 1 source = some 1 := by
    decide
  have hByte : source[rawOffset source 2 5]? = some 0x78 := by
    decide
  have hBefore :
      Text.size
        (Utf8.decodeLossy
          (source.take (rawOffset source 2 5))) = 8 := by
    decide +kernel
  rcases fault_span_safe "p.json" source error with
    ⟨hLines, -, span, hError, -, -, -, -, -, hExact⟩
  have hSpan : span = ⟨8, 1⟩ := by
    rw [(hExact 0x78 hByte (by decide)).2, hBefore]
  rw [hSpan] at hError
  exact
    ⟨hStart, hLines 1 1 hStart, hByte, by decide, _, hError⟩

end DottedRef
