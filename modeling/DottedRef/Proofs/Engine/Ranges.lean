import DottedRef.Proofs.Engine.Diagnostics
import DottedRef.Proofs.Position.Encodings

/-
  This file proves that the range of a diagnostic is the part
  of the text that its placeholder takes up, on however many
  lines: the positions lead back to the ends of the span, they
  name the same lines in both encodings, and ranges come in
  order and apart.

  Key definitions include:
    * `Position.NotAfter`
    * `Diagnostic.Covers`

  Key theorems include:
    * `Position.offset?_ofOffset_of_isOffset`
    * `Position.ofOffsetUtf16_line`
    * `Diagnostic.Covers.of_ofLookup?`
    * `Engine.spans_pairwise`
    * `Engine.diagnostic_ranges_exact`
-/

namespace DottedRef

------------------------------------------------------------
-- Positions of Usable Offsets
------------------------------------------------------------

namespace Position

/- The same position or one before it. -/
def NotAfter
    (first second : Position) : Prop :=
  first = second ∨ first.Precedes second

instance
    (first second : Position) :
    Decidable (NotAfter first second) := by
  unfold NotAfter
  infer_instance

/- The position of a usable offset leads back to it. -/
theorem offset?_ofOffset_of_isOffset
    {text : String}
    {offset : Nat}
    (h : Text.isOffset offset text.toList) :
    offset? text (ofOffset text offset) = some offset := by
  simp [offset?_ofOffset, Text.startedBefore_of_isOffset h]

/- Both encodings name the same line. -/
theorem ofOffsetUtf16_line
    (text : String)
    (offset : Nat) :
    (ofOffsetUtf16 text offset).line =
      (ofOffset text offset).line := by
  rcases exists_split_ofOffset text offset with
    ⟨before, half, rest, more, -, -, hScalar, hUtf16⟩
  simp [hScalar, hUtf16]

section Order

variable {text : String}
variable {first second : Nat}
variable (hFirst : Text.isOffset first text.toList)
variable (hSecond : Text.isOffset second text.toList)

include hFirst hSecond

/- In scalar values, offsets keep their order. -/
theorem ofOffset_notAfter
    (hLe : first ≤ second) :
    (ofOffset text first).NotAfter (ofOffset text second) := by
  rcases Nat.eq_or_lt_of_le hLe with hEq | hLt
  · exact Or.inl (congrArg (ofOffset text) hEq)
  · exact Or.inr (ofOffset_precedes hFirst hSecond hLt)

/- In UTF-16, offsets keep their order. -/
theorem ofOffsetUtf16_notAfter
    (hLe : first ≤ second) :
    (ofOffsetUtf16 text first).NotAfter
      (ofOffsetUtf16 text second) := by
  rcases Nat.eq_or_lt_of_le hLe with hEq | hLt
  · exact Or.inl (congrArg (ofOffsetUtf16 text) hEq)
  · exact Or.inr (ofOffsetUtf16_precedes hFirst hSecond hLt)

end Order

end Position

------------------------------------------------------------
-- Spans of Diagnostics
------------------------------------------------------------

namespace Diagnostic

/-
  A diagnostic covers a placeholder if its span starts and
  ends where the placeholder does.
-/
structure Covers
    (diagnostic : Diagnostic)
    (occurrence : Placeholder.Occurrence) : Prop where
  first : diagnostic.span.offset = occurrence.start
  last :
    diagnostic.span.offset + diagnostic.span.length =
      occurrence.finish

/- A diagnostic covers the placeholder that it is about. -/
theorem Covers.of_ofLookup?
    {text : List Char}
    {lookup : Lookup}
    {diagnostic : Diagnostic}
    (hStands : lookup.occurrence.StandsIn text)
    (h : ofLookup? lookup = some diagnostic) :
    diagnostic.Covers lookup.occurrence := by
  have hLt := hStands.start_lt_finish
  constructor
  · simp [span_of_ofLookup? h, Placeholder.Occurrence.span]
  · simp only [span_of_ofLookup? h, Placeholder.Occurrence.span]
    omega

end Diagnostic

namespace Engine

/- Only placeholders of the text are looked up, in order. -/
theorem lookups_sublist_scan
    (engine : Engine)
    (name text : String) :
    ((engine.lookups name text).map (·.occurrence)).Sublist
      (Placeholder.scan text) := by
  unfold lookups
  cases engine.current? with
  | none => simp
  | some document =>
      by_cases hApplies : document.appliesTo name = true
      · simp [hApplies, Function.comp_def]
      · simp [hApplies]

/- What is looked up stands in the text. -/
theorem standsIn_of_mem_lookups
    {engine : Engine}
    {name text : String}
    {lookup : Lookup}
    (hMem : lookup ∈ engine.lookups name text) :
    lookup.occurrence.StandsIn text.toList := by
  apply Placeholder.mem_scan_iff.mp
  apply (lookups_sublist_scan engine name text).subset
  exact List.mem_map_of_mem hMem

/- Every diagnostic covers a placeholder of the text. -/
theorem exists_covers_of_mem_diagnostics
    {engine : Engine}
    {name text : String}
    {diagnostic : Diagnostic}
    (hMem : diagnostic ∈ engine.diagnostics name text) :
    ∃ occurrence ∈ Placeholder.scan text,
      diagnostic.Covers occurrence := by
  rcases List.mem_filterMap.mp hMem with
    ⟨lookup, hLookup, hDiagnostic⟩
  have hStands := standsIn_of_mem_lookups hLookup
  exact
    ⟨lookup.occurrence, Placeholder.mem_scan_iff.mpr hStands,
      .of_ofLookup? hStands hDiagnostic⟩

/- The spans of diagnostics come in order and apart. -/
theorem spans_pairwise
    (engine : Engine)
    (name text : String) :
    (engine.diagnostics name text).Pairwise
      fun first second =>
        first.span.offset + first.span.length ≤
          second.span.offset := by
  have hOrder :
      ((engine.lookups name text).map
        (·.occurrence)).Pairwise
          fun first second => first.finish ≤ second.start :=
    ((Placeholder.scan_pairwise text).imp And.right).sublist
      (lookups_sublist_scan engine name text)
  unfold diagnostics
  apply List.pairwise_filterMap.mpr
  apply (List.pairwise_map.mp hOrder).imp_of_mem
  intro first second hFirst hSecond hLe earlier hEarlier
    later hLater
  have hEarlierCovers :=
    Diagnostic.Covers.of_ofLookup?
      (standsIn_of_mem_lookups hFirst) hEarlier
  have hLaterCovers :=
    Diagnostic.Covers.of_ofLookup?
      (standsIn_of_mem_lookups hSecond) hLater
  rw [hEarlierCovers.last, hLaterCovers.first]
  exact hLe

------------------------------------------------------------
-- Ranges
------------------------------------------------------------

/-
  The positions of a diagnostic's range lead back to the ends
  of its span and name the same lines in both encodings. In
  either one a range ends past its start and no later than the
  next one starts.
-/
theorem diagnostic_ranges_exact
    (engine : Engine)
    (name text : String) :
    (∀ diagnostic ∈ engine.diagnostics name text,
      let range := diagnostic.range text
      let utf16 := diagnostic.rangeUtf16 text
      Position.offset? text range.first =
          some diagnostic.span.offset ∧
        Position.offset? text range.last =
          some
            (diagnostic.span.offset +
              diagnostic.span.length) ∧
        utf16.first.line = range.first.line ∧
        utf16.last.line = range.last.line ∧
        range.first.Precedes range.last ∧
        utf16.first.Precedes utf16.last) ∧
    (engine.diagnostics name text).Pairwise
      fun earlier later =>
        (earlier.range text).last.NotAfter
            (later.range text).first ∧
          (earlier.rangeUtf16 text).last.NotAfter
            (later.rangeUtf16 text).first := by
  have hUsable :
      ∀ diagnostic ∈ engine.diagnostics name text,
        Text.isOffset diagnostic.span.offset text.toList ∧
          Text.isOffset
            (diagnostic.span.offset + diagnostic.span.length)
            text.toList ∧
          diagnostic.span.offset <
            diagnostic.span.offset +
              diagnostic.span.length := by
    intro diagnostic hMem
    rcases exists_covers_of_mem_diagnostics hMem with
      ⟨occurrence, hOccurrence, hCovers⟩
    have hStands := Placeholder.mem_scan_iff.mp hOccurrence
    rw [hCovers.last, hCovers.first]
    exact
      ⟨hStands.isOffset_start, hStands.isOffset_finish,
        hStands.start_lt_finish⟩
  constructor
  · intro diagnostic hMem range utf16
    rcases hUsable diagnostic hMem with ⟨hFirst, hLast, hLt⟩
    exact
      ⟨Position.offset?_ofOffset_of_isOffset hFirst,
        Position.offset?_ofOffset_of_isOffset hLast,
        Position.ofOffsetUtf16_line _ _,
        Position.ofOffsetUtf16_line _ _,
        Position.ofOffset_precedes hFirst hLast hLt,
        Position.ofOffsetUtf16_precedes hFirst hLast hLt⟩
  · apply (spans_pairwise engine name text).imp_of_mem
    intro earlier later hEarlier hLater hLe
    rcases hUsable earlier hEarlier with ⟨-, hLast, -⟩
    rcases hUsable later hLater with ⟨hFirst, -, -⟩
    exact
      ⟨Position.ofOffset_notAfter hLast hFirst hLe,
        Position.ofOffsetUtf16_notAfter hLast hFirst hLe⟩

/-
  A placeholder with an emoji and a line feed in its segment
  and the one right behind it: the first range ends on the
  second line, where the second range starts.
-/
theorem diagnostic_ranges_exact_of_two_lines :
    let document : Document :=
      ⟨.object
        [("placeholder", .object
          [("suffixes", .array [.string ".txt"])])]⟩
    let engine : Engine :=
      { Engine.new "p.json" .host with
        store := ⟨"p.json", .loaded document, 1⟩ }
    let text := "$(mcp.😀\na)$(mcp.b)"
    let first : Diagnostic :=
      ⟨⟨0, 13⟩, "😀\na", missingKeyMessage "😀\na", .error⟩
    let second : Diagnostic :=
      ⟨⟨13, 8⟩, "b", missingKeyMessage "b", .error⟩
    engine.diagnostics "f.txt" text = [first, second] ∧
      Position.offset? text ⟨0, 0⟩ = some 0 ∧
      Position.offset? text ⟨1, 2⟩ = some 13 ∧
      (first.rangeUtf16 text).first.Precedes
        (first.rangeUtf16 text).last ∧
      (first.rangeUtf16 text).last.NotAfter
        (second.rangeUtf16 text).first := by
  intro document engine text first second
  have hBoth :
      engine.diagnostics "f.txt" text = [first, second] := by
    decide +kernel
  rcases diagnostic_ranges_exact engine "f.txt" text with
    ⟨hEach, hOrder⟩
  rw [hBoth] at hEach hOrder
  rcases hEach first List.mem_cons_self with
    ⟨hFirst, hLast, -, -, -, hUtf16⟩
  have hRange : first.range text = ⟨⟨0, 0⟩, ⟨1, 2⟩⟩ := by
    decide
  rw [hRange] at hFirst hLast
  exact
    ⟨hBoth, hFirst, hLast, hUtf16,
      (List.pairwise_pair.mp hOrder).2⟩

end Engine

end DottedRef
