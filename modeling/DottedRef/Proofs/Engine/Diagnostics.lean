import DottedRef.Engine
import DottedRef.Proofs.Json.Rendering
import DottedRef.Proofs.Placeholder.AtOffset
import DottedRef.Proofs.Resolution.Descent

/-
  This file proves that an engine says one thing about a
  placeholder, however it is asked: a placeholder that leads
  somewhere has no diagnostic and its value as hover text, and
  one that breaks has one diagnostic, whose message is the
  hover text and that of the report.

  Main declarations:
    * `Diagnostic.span_of_ofLookup?`
    * `MissingKey.message_eq`
    * `Engine.hover_of_mem`
    * `Engine.diagnostics_eq_filterMap`
    * `Engine.map_span_diagnostics`
    * `Engine.filter_span_scan`
    * `Engine.filter_span_diagnostics`
    * `Engine.diagnostics_hover_agreement`
-/

namespace DottedRef

/- A diagnostic takes up the same part as its placeholder. -/
theorem Diagnostic.span_of_ofLookup?
    {lookup : Lookup}
    {diagnostic : Diagnostic}
    (h : ofLookup? lookup = some diagnostic) :
    diagnostic.span = lookup.occurrence.span := by
  unfold ofLookup? at h
  split at h
  · simp at h
  · rw [← Option.some.inj h]

/- The report of a key words it as a broken path does. -/
theorem MissingKey.message_eq
    (missing : MissingKey) :
    missing.message = missingKeyMessage missing.key := by
  rfl

namespace Engine

------------------------------------------------------------
-- Hover
------------------------------------------------------------

/-
  Within a placeholder and at its end, the hover text is the
  text of its value or says which key does not exist.
-/
theorem hover_of_mem
    {engine : Engine}
    {document : Document}
    {text : String}
    {occurrence : Placeholder.Occurrence}
    {offset : Nat}
    (hLoaded : engine.current? = some document)
    (hMem : occurrence ∈ Placeholder.scan text)
    (hOffset : Text.isOffset offset text.toList)
    (hStart : occurrence.start < offset)
    (hFinish : offset ≤ occurrence.finish) :
    engine.hover text offset =
      match document.data.resolve occurrence.path with
      | .resolved node => some node.render
      | .broken _ segment => some (missingKeyMessage segment) := by
  have hAt :=
    Placeholder.occurrenceAt?_of_mem hMem hOffset hStart hFinish
  unfold hover hoverLookup?
  rw [hLoaded, hAt]
  cases hResolve : document.data.resolve occurrence.path <;>
    simp [hResolve]

------------------------------------------------------------
-- Diagnostics
------------------------------------------------------------

section Diagnostics

variable {engine : Engine}
variable {document : Document}
variable {name : String}

/-
  The diagnostics of a text that is looked at are those of its
  placeholders in order.
-/
theorem diagnostics_eq_filterMap
    (hLoaded : engine.current? = some document)
    (hApplies : document.appliesTo name = true)
    (text : String) :
    engine.diagnostics name text =
      (Placeholder.scan text).filterMap fun occurrence =>
        Diagnostic.ofLookup?
          ⟨occurrence,
            document.data.resolve occurrence.path⟩ := by
  unfold diagnostics lookups
  simp only [hLoaded, hApplies, if_true]
  rw [List.filterMap_map]
  rfl

/-
  There is one diagnostic for each placeholder that breaks, in
  the order in which they stand, and no other.
-/
theorem map_span_diagnostics
    (hLoaded : engine.current? = some document)
    (hApplies : document.appliesTo name = true)
    (text : String) :
    (engine.diagnostics name text).map (·.span) =
      ((Placeholder.scan text).filter fun occurrence =>
        (document.data.resolve
          occurrence.path).failure?.isSome).map (·.span) := by
  rw [diagnostics_eq_filterMap hLoaded hApplies]
  induction Placeholder.scan text with
  | nil => rfl
  | cons occurrence occurrences ih =>
      rw [List.filterMap_cons, List.filter_cons]
      cases hResolve :
          document.data.resolve occurrence.path with
      | resolved node => exact ih
      | broken index segment =>
          exact congrArg (occurrence.span :: ·) ih

/- No two placeholders take up the same part of a text. -/
theorem filter_span_scan
    {text : String}
    {occurrence : Placeholder.Occurrence}
    (hMem : occurrence ∈ Placeholder.scan text) :
    (Placeholder.scan text).filter
        (·.span = occurrence.span) =
      [occurrence] := by
  have hNone :
      ∀ others : List Placeholder.Occurrence,
        (∀ other ∈ others, other.start ≠ occurrence.start) →
          others.filter (·.span = occurrence.span) = [] := by
    intro others hStarts
    apply List.filter_eq_nil_iff.mpr
    intro other hOther hSpan
    apply hStarts other hOther
    exact congrArg Span.offset (of_decide_eq_true hSpan)
  rcases List.append_of_mem hMem with ⟨before, after, hScan⟩
  have hOrder := Placeholder.scan_pairwise text
  rw [hScan] at hOrder
  rcases List.pairwise_append.mp hOrder with
    ⟨-, hLater, hEarlier⟩
  have hBefore :
      ∀ other ∈ before, other.start ≠ occurrence.start := by
    intro other hOther
    have hLt :=
      (hEarlier other hOther occurrence List.mem_cons_self).1
    omega
  have hAfter :
      ∀ other ∈ after, other.start ≠ occurrence.start := by
    intro other hOther
    have hLt := ((List.pairwise_cons.mp hLater).1 other hOther).1
    omega
  rw [hScan, List.filter_append, List.filter_cons,
    hNone before hBefore, hNone after hAfter]
  simp

/- Only the diagnostic of a placeholder has its span. -/
theorem filter_ofLookup?
    (lookup : Lookup)
    (span : Span) :
    (Diagnostic.ofLookup? lookup).filter (·.span = span) =
      if lookup.occurrence.span = span then
        Diagnostic.ofLookup? lookup
      else
        none := by
  cases hDiagnostic : Diagnostic.ofLookup? lookup with
  | none => simp
  | some diagnostic =>
      have hSpan := Diagnostic.span_of_ofLookup? hDiagnostic
      simp [Option.filter_some, hSpan]

/-
  The diagnostics for the part that a placeholder takes up are
  its own.
-/
theorem filter_span_diagnostics
    {text : String}
    {occurrence : Placeholder.Occurrence}
    (hLoaded : engine.current? = some document)
    (hApplies : document.appliesTo name = true)
    (hMem : occurrence ∈ Placeholder.scan text) :
    (engine.diagnostics name text).filter
        (·.span = occurrence.span) =
      (Diagnostic.ofLookup?
        ⟨occurrence,
          document.data.resolve occurrence.path⟩).toList := by
  let diagnose (other : Placeholder.Occurrence) :=
    Diagnostic.ofLookup?
      ⟨other, document.data.resolve other.path⟩
  calc
    _ = (Placeholder.scan text).filterMap fun other =>
          if other.span = occurrence.span then
            diagnose other
          else
            none := by
      rw [diagnostics_eq_filterMap hLoaded hApplies,
        List.filter_filterMap]
      simp only [filter_ofLookup?, diagnose]
    _ = ((Placeholder.scan text).filter
          (·.span = occurrence.span)).filterMap diagnose := by
      rw [List.filterMap_filter]
      simp only [decide_eq_true_eq]
    _ = [occurrence].filterMap diagnose := by
      rw [filter_span_scan hMem]
    _ = (diagnose occurrence).toList := by
      rw [List.filterMap_cons]
      cases diagnose occurrence <;> rfl

end Diagnostics

------------------------------------------------------------
-- Agreement
------------------------------------------------------------

/-
  The diagnostics of a text that is looked at are for its
  broken placeholders, one for each and in order. A value is
  shown where a placeholder leads somewhere, and nothing else
  reads like it; else the diagnostic, its report and the hover
  text say the same about the first segment that is lacking.
-/
theorem diagnostics_hover_agreement
    {engine : Engine}
    {document : Document}
    {name : String}
    (hLoaded : engine.current? = some document)
    (hApplies : document.appliesTo name = true)
    (text : String) :
    let diagnostics := engine.diagnostics name text
    diagnostics.map (·.span) =
        ((Placeholder.scan text).filter fun occurrence =>
          (document.data.resolve
            occurrence.path).failure?.isSome).map (·.span) ∧
      (∀ occurrence ∈ Placeholder.scan text, ∀ offset,
        Text.isOffset offset text.toList →
          occurrence.start < offset →
            offset ≤ occurrence.finish →
              match document.data.resolve occurrence.path with
              | .resolved node =>
                  (∀ diagnostic ∈ diagnostics,
                    diagnostic.span ≠ occurrence.span) ∧
                    engine.hover text offset =
                      some node.render
              | .broken index segment =>
                  (∃ before after middle,
                    occurrence.path =
                        before ++ segment :: after ∧
                      index = before.length ∧
                      document.data.LeadsTo before middle ∧
                      middle.Lacks segment) ∧
                    ∃ diagnostic,
                      diagnostics.filter
                          (·.span = occurrence.span) =
                        [diagnostic] ∧
                      diagnostic.key = segment ∧
                      engine.hover text offset =
                        some diagnostic.message ∧
                      (diagnostic.missingKey name
                        text).message =
                          diagnostic.message) ∧
      ∀ (node : Json.Node) (segment : String),
        node.render ≠ missingKeyMessage segment := by
  intro diagnostics
  refine
    ⟨map_span_diagnostics hLoaded hApplies text, ?_,
      Json.Node.render_ne_missingKeyMessage⟩
  intro occurrence hMem offset hOffset hStart hFinish
  have hHover :=
    hover_of_mem hLoaded hMem hOffset hStart hFinish
  have hFilter :=
    filter_span_diagnostics hLoaded hApplies hMem
  cases hResolve : document.data.resolve occurrence.path with
  | resolved node =>
      rw [hResolve] at hHover hFilter
      refine ⟨?_, hHover⟩
      intro diagnostic hDiagnostic hSpan
      have hNone := List.filter_eq_nil_iff.mp hFilter
      exact
        hNone diagnostic hDiagnostic (decide_eq_true hSpan)
  | broken index segment =>
      rw [hResolve] at hHover hFilter
      refine
        ⟨Json.Node.resolve_eq_broken_iff.mp hResolve, _,
          hFilter, rfl, hHover, MissingKey.message_eq _⟩

/-
  Of two placeholders that meet, the first one leads somewhere
  and the hover text where they meet is its value, while the
  second one breaks.
-/
theorem diagnostics_hover_agreement_of_adjacent :
    let document : Document :=
      ⟨.object
        [("placeholder", .object
          [("data", .object [("a", .boolean true)]),
            ("suffixes", .array [.string ".txt"])])]⟩
    let engine : Engine :=
      { Engine.new "p.json" .host with
        store := ⟨"p.json", .loaded document, 1⟩ }
    let text := "$(mcp.a)$(mcp.b)"
    engine.hover text 8 =
        some (Json.Node.boolean true).render ∧
      ∃ diagnostic,
        (engine.diagnostics "f.txt" text).filter
            (·.span = ⟨8, 8⟩) = [diagnostic] ∧
          diagnostic.key = "b" ∧
          engine.hover text 16 = some diagnostic.message := by
  intro document engine text
  have hScan :
      Placeholder.scan text =
        [⟨0, 8, ["a"]⟩, ⟨8, 16, ["b"]⟩] := by
    decide +kernel
  have hApplies : document.appliesTo "f.txt" = true := by
    decide
  have hFirst :
      document.data.resolve ["a"] =
        .resolved (.boolean true) := by
    rfl
  have hSecond :
      document.data.resolve ["b"] = .broken 0 "b" := by
    rfl
  have hLoaded : engine.current? = some document := by
    rfl
  rcases
    diagnostics_hover_agreement hLoaded hApplies text with
    ⟨-, hEach, -⟩
  have hA :=
    hEach ⟨0, 8, ["a"]⟩ (by simp [hScan]) 8
      (by decide) (by decide) (by decide)
  have hB :=
    hEach ⟨8, 16, ["b"]⟩ (by simp [hScan]) 16
      (by decide) (by decide) (by decide)
  simp only [hFirst] at hA
  simp only [hSecond] at hB
  rcases hB with ⟨-, diagnostic, hSpan, hKey, hHover, -⟩
  exact ⟨hA.2, diagnostic, hSpan, hKey, hHover⟩

end Engine

end DottedRef
