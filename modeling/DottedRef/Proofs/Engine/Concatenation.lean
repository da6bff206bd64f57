import DottedRef.Engine
import DottedRef.Proofs.Placeholder.Concatenation

/-
  This file proves that diagnostics are local: what is said
  about a text does not change when another one is put behind
  it, and the diagnostics of the other one only move, unless
  the first text ends where the second could go on with a
  placeholder.

  Key definitions include:
    * `Span.shift`
    * `Diagnostic.shift`
    * `Lookup.shift`

  Key theorems include:
    * `Diagnostic.ofLookup?_shift`
    * `Engine.lookups_append`
    * `Engine.diagnostics_append`
-/

namespace DottedRef

------------------------------------------------------------
-- Moved Diagnostics
------------------------------------------------------------

/- A span behind a text of the given size. -/
def Span.shift
    (distance : Nat)
    (span : Span) : Span :=
  ⟨span.offset + distance, span.length⟩

/- A diagnostic behind a text of the given size. -/
def Diagnostic.shift
    (distance : Nat)
    (diagnostic : Diagnostic) : Diagnostic :=
  { diagnostic with span := diagnostic.span.shift distance }

/- A lookup behind a text of the given size. -/
def Lookup.shift
    (distance : Nat)
    (lookup : Lookup) : Lookup :=
  { lookup with
    occurrence := lookup.occurrence.shift distance }

/- A placeholder keeps its length where it is moved. -/
theorem Placeholder.Occurrence.span_shift
    (distance : Nat)
    (occurrence : Occurrence) :
    (occurrence.shift distance).span =
      occurrence.span.shift distance := by
  unfold span shift Span.shift
  rw [Nat.add_sub_add_right]

/- Where a placeholder stands does not decide what it says. -/
theorem Diagnostic.ofLookup?_shift
    (distance : Nat)
    (lookup : Lookup) :
    ofLookup? (lookup.shift distance) =
      (ofLookup? lookup).map (·.shift distance) := by
  unfold ofLookup? Lookup.shift
  cases lookup.resolution with
  | resolved node => rfl
  | broken index segment =>
      simp only [Placeholder.Occurrence.span_shift,
        Option.map_some, shift]

------------------------------------------------------------
-- Diagnostics of Two Texts
------------------------------------------------------------

namespace Engine

/- Lookups are taken over from the scans of both texts. -/
theorem lookups_append
    {first second : String}
    (engine : Engine)
    (name : String)
    (hScan :
      Placeholder.scan (first ++ second) =
        Placeholder.scan first ++
          (Placeholder.scan second).map
            (·.shift (Text.size first.toList))) :
    engine.lookups name (first ++ second) =
      engine.lookups name first ++
        (engine.lookups name second).map
          (·.shift (Text.size first.toList)) := by
  unfold lookups
  cases engine.current? with
  | none => rfl
  | some document =>
      by_cases hApplies : document.appliesTo name = true
      · simp only [hApplies, if_true]
        rw [hScan, List.map_append, List.map_map, List.map_map]
        rfl
      · simp only [hApplies, Bool.false_eq_true, if_false,
          List.map_nil, List.append_nil]

/-
  Putting a text behind another changes no diagnostic of the
  first one and moves those of the second one, unless the first
  ends in a part of an opener or in a placeholder that is still
  being typed. The scan does the same.
-/
theorem diagnostics_append
    {first : String}
    (hOpener : ¬ Placeholder.EndsInCutOpener first.toList)
    (hDraft :
      Placeholder.draftAt? first (Text.size first.toList) =
        none)
    (engine : Engine)
    (name second : String) :
    Placeholder.scan (first ++ second) =
        Placeholder.scan first ++
          (Placeholder.scan second).map
            (·.shift (Text.size first.toList)) ∧
      engine.diagnostics name (first ++ second) =
        engine.diagnostics name first ++
          (engine.diagnostics name second).map
            (·.shift (Text.size first.toList)) := by
  have hScan :=
    Placeholder.scan_append hOpener hDraft second
  refine ⟨hScan, ?_⟩
  unfold diagnostics
  rw [lookups_append engine name hScan, List.filterMap_append,
    List.filterMap_map, List.map_filterMap]
  congr 1
  apply List.filterMap_congr
  intro lookup _
  exact Diagnostic.ofLookup?_shift _ lookup

/-
  A placeholder that does not resolve is moved by the unclosed
  opener and the `é` in front of it.
-/
theorem diagnostics_append_of_unclosed :
    let document : Document :=
      ⟨.object
        [("placeholder", .object
          [("data", .object [("a", .boolean true)]),
            ("suffixes", .array [.string ".txt"])])]⟩
    let engine : Engine :=
      { Engine.new "p.json" .host with
        store := ⟨"p.json", .loaded document, 1⟩ }
    let first := "$(mcp.x)$(mcp.(é"
    ¬ Placeholder.EndsInCutOpener first.toList ∧
      Placeholder.draftAt? first (Text.size first.toList) =
        none ∧
      engine.diagnostics "f.txt" (first ++ "$(mcp.b)") =
        [⟨⟨0, 8⟩, "x", missingKeyMessage "x", .error⟩,
          ⟨⟨17, 8⟩, "b", missingKeyMessage "b", .error⟩] := by
  intro document engine first
  have hOpener :
      ¬ Placeholder.EndsInCutOpener first.toList := by
    decide
  have hDraft :
      Placeholder.draftAt? first (Text.size first.toList) =
        none := by
    decide
  have hFirst :
      engine.diagnostics "f.txt" first =
        [⟨⟨0, 8⟩, "x", missingKeyMessage "x", .error⟩] := by
    decide +kernel
  have hSecond :
      engine.diagnostics "f.txt" "$(mcp.b)" =
        [⟨⟨0, 8⟩, "b", missingKeyMessage "b", .error⟩] := by
    decide +kernel
  refine ⟨hOpener, hDraft, ?_⟩
  rw [(diagnostics_append hOpener hDraft engine "f.txt"
    "$(mcp.b)").2, hFirst, hSecond]
  decide

end Engine

end DottedRef
