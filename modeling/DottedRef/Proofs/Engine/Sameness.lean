import DottedRef.Engine
import DottedRef.Proofs.Json.Sameness

/-
  This file proves that documents which are the same cannot be
  told apart by lookups, diagnostics and completion, although
  sameness is not equality: numbers are compared by value.

  Key definitions include:
    * `Resolution.IsSame`

  Key theorems include:
    * `Json.Node.resolve_of_same`
    * `Document.data_of_same`
    * `Document.suffixes_of_same`
    * `Engine.diagnostics_of_same`
    * `Engine.completion_of_same`
    * `Document.sameness_is_congruence`
-/

namespace DottedRef

------------------------------------------------------------
-- Resolutions
------------------------------------------------------------

/-
  Resolutions are the same if they lead to nodes that are, or
  break at one segment.
-/
inductive Resolution.IsSame : Resolution → Resolution → Prop
  | resolved
      {first second : Json.Node}
      (h : first.same second = true) :
      IsSame (.resolved first) (.resolved second)
  | broken
      (index : Nat)
      (segment : String) :
      IsSame (.broken index segment) (.broken index segment)

/-
  A path leads to the same from nodes that are the same: each
  segment is the key of values that are the same and count as
  missing together, or of none in either node.
-/
theorem Json.Node.resolveFrom_of_same
    {first second : Node}
    (hSame : first.same second = true)
    (index : Nat)
    (path : List String) :
    Resolution.IsSame
      (first.resolveFrom index path)
      (second.resolveFrom index path) := by
  induction path generalizing index first second with
  | nil => exact .resolved hSame
  | cons segment path ih =>
      have hChildren := get?_of_same hSame segment
      rw [resolveFrom, resolveFrom]
      generalize first.get? segment = child,
        second.get? segment = other at hChildren ⊢
      cases hChildren with
      | none => exact .broken index segment
      | some hChild =>
          simp only [isFalsy_of_same hChild]
          split
          · exact .broken index segment
          · exact ih hChild (index + 1)

/- A path leads to the same from nodes that are the same. -/
theorem Json.Node.resolve_of_same
    {first second : Node}
    (hSame : first.same second = true)
    (path : List String) :
    Resolution.IsSame
      (first.resolve path) (second.resolve path) :=
  resolveFrom_of_same hSame 0 path

------------------------------------------------------------
-- Documents
------------------------------------------------------------

namespace Document

variable {first second : Document}
variable (hSame : first.same second = true)

include hSame

/- Settings of documents that are the same are the same. -/
theorem setting?_of_same
    (key : String) :
    Option.Rel Json.Node.IsSame
      (first.setting? key) (second.setting? key) := by
  have hSettings :=
    Json.Node.get?_of_same hSame "placeholder"
  unfold setting?
  generalize first.root.get? "placeholder" = one,
    second.root.get? "placeholder" = other at hSettings ⊢
  cases hSettings with
  | none => exact .none
  | some hNode => exact Json.Node.get?_of_same hNode key

/- Paths start from nodes that are the same. -/
theorem data_of_same :
    first.data.same second.data = true := by
  have hData := setting?_of_same hSame "data"
  unfold data
  generalize first.setting? "data" = one,
    second.setting? "data" = other at hData ⊢
  cases hData with
  | none => rfl
  | some hNode => exact hNode

/- Documents that are the same list the same suffixes. -/
theorem suffixes_of_same :
    first.suffixes = second.suffixes := by
  have hSuffixes := setting?_of_same hSame "suffixes"
  unfold suffixes
  generalize first.setting? "suffixes" = one,
    second.setting? "suffixes" = other at hSuffixes ⊢
  cases hSuffixes with
  | none => rfl
  | some hNode =>
      cases Json.Node.same_iff.mp hNode with
      | array hItems => exact Json.texts_of_forall₂ hItems
      | _ => rfl

/- Documents that are the same look at the same texts. -/
theorem appliesTo_of_same
    (name : String) :
    first.appliesTo name = second.appliesTo name := by
  simp [appliesTo, suffixes_of_same hSame]

end Document

------------------------------------------------------------
-- Engines
------------------------------------------------------------

/- Only the segment at which a path breaks is diagnosed. -/
theorem Diagnostic.ofLookup?_of_same
    {first second : Resolution}
    (hSame : first.IsSame second)
    (occurrence : Placeholder.Occurrence) :
    ofLookup? ⟨occurrence, first⟩ =
      ofLookup? ⟨occurrence, second⟩ := by
  cases hSame <;> rfl

namespace Engine

/- The keys below what the draft leads to are offered. -/
theorem completion_eq_keys
    (engine : Engine)
    (text : String)
    (caret : Nat) :
    engine.completion text caret =
      match engine.draftLookup? text caret with
      | some (.resolved node) => node.keys
      | _ => [] := by
  unfold completion candidates
  cases engine.draftLookup? text caret with
  | none => rfl
  | some resolution =>
      cases resolution with
      | broken index segment => rfl
      | resolved node => cases node <;> rfl

variable {engine other : Engine}
variable {first second : Document}
variable (hFirst : engine.current? = some first)
variable (hSecond : other.current? = some second)
variable (hSame : first.same second = true)

include hFirst hSecond hSame

/- Engines with documents that are the same diagnose alike. -/
theorem diagnostics_of_same
    (name text : String) :
    engine.diagnostics name text =
      other.diagnostics name text := by
  have hApplies := Document.appliesTo_of_same hSame name
  have hData := Document.data_of_same hSame
  unfold diagnostics lookups
  simp only [hFirst, hSecond, hApplies]
  split
  · rw [List.filterMap_map, List.filterMap_map]
    apply List.filterMap_congr
    intro occurrence _
    apply Diagnostic.ofLookup?_of_same
    exact Json.Node.resolve_of_same hData occurrence.path
  · rfl

/- Engines with documents that are the same offer one list. -/
theorem completion_of_same
    (text : String)
    (caret : Nat) :
    engine.completion text caret =
      other.completion text caret := by
  have hData := Document.data_of_same hSame
  rw [completion_eq_keys, completion_eq_keys]
  unfold draftLookup?
  cases hDraft : Placeholder.draftAt? text caret with
  | none => simp [hFirst, hSecond]
  | some draft =>
      have hLookup :=
        Json.Node.resolve_of_same hData draft.parentPath
      simp only [hFirst, hSecond, Option.bind_eq_bind,
        Option.bind_some]
      generalize first.data.resolve draft.parentPath = one,
        second.data.resolve draft.parentPath = same
        at hLookup ⊢
      cases hLookup with
      | broken index segment => rfl
      | resolved hNode => exact Json.Node.keys_of_same hNode

end Engine

------------------------------------------------------------
-- Congruence
------------------------------------------------------------

/-
  Documents that are the same have the same data and suffixes,
  look at the same texts, and lead every path to the same.
  Engines that hold them have the same diagnostics and offer
  the same keys.
-/
theorem Document.sameness_is_congruence
    {first second : Document}
    (hSame : first.same second = true) :
    first.data.same second.data = true ∧
      first.suffixes = second.suffixes ∧
      (∀ name,
        first.appliesTo name = second.appliesTo name) ∧
      (∀ path,
        Resolution.IsSame (first.data.resolve path)
          (second.data.resolve path)) ∧
      ∀ engine other : Engine,
        engine.current? = some first →
          other.current? = some second →
            (∀ name text,
              engine.diagnostics name text =
                other.diagnostics name text) ∧
              ∀ text caret,
                engine.completion text caret =
                  other.completion text caret := by
  have hData := data_of_same hSame
  refine
    ⟨hData, suffixes_of_same hSame, appliesTo_of_same hSame,
      Json.Node.resolve_of_same hData, ?_⟩
  intro engine other hFirst hSecond
  exact
    ⟨Engine.diagnostics_of_same hFirst hSecond hSame,
      Engine.completion_of_same hFirst hSecond hSame⟩

/-
  Documents that differ in the sign of a zero only are the
  same, and a placeholder that leads nowhere has one
  diagnostic in engines that hold them.
-/
theorem Document.sameness_is_congruence_of_zeros :
    let holding (zero : Float) : Document :=
      ⟨.object
        [("placeholder", .object
          [("data", .object [("a", .number (.double zero))]),
            ("suffixes", .array [.string ".txt"])])]⟩
    let engine (zero : Float) : Engine :=
      { Engine.new "p.json" .host with
        store := ⟨"p.json", .loaded (holding zero), 1⟩ }
    (holding 0.0).same (holding (-0.0)) = true ∧
      (holding 0.0).data.same (holding (-0.0)).data = true ∧
      (engine 0.0).diagnostics "f.txt" "$(mcp.a)$(mcp.b)" =
        [⟨⟨8, 8⟩, "b", missingKeyMessage "b", .error⟩] ∧
      (engine (-0.0)).diagnostics "f.txt" "$(mcp.a)$(mcp.b)" =
        [⟨⟨8, 8⟩, "b", missingKeyMessage "b", .error⟩] := by
  intro holding engine
  have hSame :
      (holding 0.0).same (holding (-0.0)) = true := by
    decide +kernel
  rcases sameness_is_congruence hSame with
    ⟨hData, -, -, -, hEngines⟩
  have hDiagnostics :
      (engine 0.0).diagnostics "f.txt" "$(mcp.a)$(mcp.b)" =
        [⟨⟨8, 8⟩, "b", missingKeyMessage "b", .error⟩] := by
    decide +kernel
  have hAlike :=
    (hEngines (engine 0.0) (engine (-0.0)) rfl rfl).1
      "f.txt" "$(mcp.a)$(mcp.b)"
  exact ⟨hSame, hData, hDiagnostics, hAlike ▸ hDiagnostics⟩

end DottedRef
