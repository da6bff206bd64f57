import DottedRef.Proofs.Placeholder.Draft
import Mathlib.Data.List.Infix
import Mathlib.Data.List.Sort

/-
  This file proves what a scan finds in two texts put behind
  one another. Unless the first one ends within an opener or
  within a placeholder that is still being typed, nothing
  stands across the cut, and each text keeps its placeholders.

  Key definitions include:
    * `Placeholder.Occurrence.shift`
    * `Placeholder.EndsInCutOpener`

  Key theorems include:
    * `Placeholder.eq_scan_of_mem_iff`
    * `Placeholder.Occurrence.standsIn_append_left_iff`
    * `Placeholder.Occurrence.standsIn_shift_iff`
    * `Placeholder.Occurrence.StandsIn.apart_of_cut`
    * `Placeholder.scan_append`
-/

namespace DottedRef

namespace Placeholder

------------------------------------------------------------
-- Occurrences in Either Text
------------------------------------------------------------

/- An occurrence behind a text of the given size. -/
def Occurrence.shift
    (distance : Nat)
    (occurrence : Occurrence) : Occurrence :=
  ⟨occurrence.start + distance,
    occurrence.finish + distance, occurrence.path⟩

section Cut

variable {occurrence : Occurrence}
variable {first second : List Char}

/- An occurrence ends within its text. -/
theorem Occurrence.StandsIn.finish_le_size
    {text : List Char}
    (h : occurrence.StandsIn text) :
    occurrence.finish ≤ Text.size text :=
  Text.le_size_of_isOffset h.isOffset_finish

/- What ends within the first text stands in it alone. -/
theorem Occurrence.standsIn_append_left_iff
    (hFinish : occurrence.finish ≤ Text.size first) :
    occurrence.StandsIn (first ++ second) ↔
      occurrence.StandsIn first := by
  unfold StandsIn
  rw [Text.slice?_append_left_iff hFinish]

/- What stands in the second text stands behind the first. -/
theorem Occurrence.standsIn_shift_iff :
    (occurrence.shift (Text.size first)).StandsIn
        (first ++ second) ↔
      occurrence.StandsIn second := by
  unfold StandsIn shift
  rw [Text.slice?_append_right_iff]

/- What starts in the second text is shifted from there. -/
theorem Occurrence.exists_shift_eq
    {distance : Nat}
    (hStart : distance ≤ occurrence.start)
    (hOrder : occurrence.start ≤ occurrence.finish) :
    ∃ inner : Occurrence, inner.shift distance = occurrence := by
  refine
    ⟨⟨occurrence.start - distance,
      occurrence.finish - distance, occurrence.path⟩, ?_⟩
  unfold shift
  rw [Nat.sub_add_cancel hStart,
    Nat.sub_add_cancel (Nat.le_trans hStart hOrder)]

------------------------------------------------------------
-- Occurrences Across a Cut
------------------------------------------------------------

/-
  A text ends in a cut opener if it ends with the first
  characters of an opener, but not with all of them.
-/
def EndsInCutOpener
    (text : List Char) : Prop :=
  ∃ part, part ≠ [] ∧ part ≠ opener ∧
    part <+: opener ∧ part <:+ text

instance
    (text : List Char) :
    Decidable (EndsInCutOpener text) :=
  decidable_of_iff
    (∃ part ∈ opener.inits,
      part ≠ [] ∧ part ≠ opener ∧ part <:+ text) (by
    unfold EndsInCutOpener
    simp only [List.mem_inits]
    constructor
    · rintro ⟨part, hPrefix, hNonempty, hProper, hSuffix⟩
      exact ⟨part, hNonempty, hProper, hPrefix, hSuffix⟩
    · rintro ⟨part, hNonempty, hProper, hPrefix, hSuffix⟩
      exact ⟨part, hPrefix, hNonempty, hProper, hSuffix⟩)

/- A cut through an opener leaves a part of it. -/
theorem endsInCutOpener_of_opener
    {before rest : List Char}
    (hText : before ++ (opener ++ rest) = first ++ second)
    (hStart : Text.size before < Text.size first)
    (hFinish :
      Text.size first < Text.size before + openerSize) :
    EndsInCutOpener first := by
  rcases Text.exists_between hText (by omega) with
    ⟨part, rfl, hRest⟩
  rw [Text.size_append] at hStart hFinish
  rcases Text.exists_between hRest.symm (by
      rw [size_opener]
      omega) with
    ⟨missing, hOpener, -⟩
  refine
    ⟨part, ?_, ?_, ⟨missing, hOpener.symm⟩,
      List.suffix_append before part⟩
  · rintro rfl
    exact Nat.lt_irrefl _ hStart
  · rintro rfl
    rw [size_opener] at hFinish
    exact Nat.lt_irrefl _ hFinish

/-
  No occurrence stands across a cut behind a text that ends
  neither in a cut opener nor in a draft. Its opener would be
  cut, or else what comes before the cut would be a draft.
-/
theorem Occurrence.StandsIn.apart_of_cut
    (h : occurrence.StandsIn (first ++ second))
    (hOpener : ¬ EndsInCutOpener first)
    (hDraft :
      ∀ draft : Draft, ¬ draft.EndsAt (Text.size first) first) :
    occurrence.finish ≤ Text.size first ∨
      Text.size first ≤ occurrence.start := by
  by_contra hAcross
  rw [not_or, Nat.not_le, Nat.not_le] at hAcross
  rcases hAcross with ⟨hFinish, hStart⟩
  by_cases hBody :
      occurrence.start + openerSize ≤ Text.size first
  · -- The cut is a caret within the body of the placeholder.
    have hOffset :
        Text.isOffset (Text.size first) (first ++ second) :=
      Text.isOffset_iff.mpr ⟨first, second, rfl, rfl⟩
    rcases h.exists_draft hOffset hBody hFinish with
      ⟨draft, hEnds, -⟩
    exact hDraft draft (Draft.endsAt_append_iff.mp hEnds)
  · rcases standsIn_iff.mp h with
      ⟨-, before, after, hText, hBefore, -⟩
    apply hOpener
    exact
      endsInCutOpener_of_opener hText (by omega) (by omega)

end Cut

------------------------------------------------------------
-- Scans
------------------------------------------------------------

/- A scan is the only ordered list of what stands in a text. -/
theorem eq_scan_of_mem_iff
    {text : String}
    {occurrences : List Occurrence}
    (hOrder :
      occurrences.Pairwise fun first second =>
        first.start < second.start)
    (hMem : ∀ occurrence,
      occurrence ∈ occurrences ↔
        occurrence.StandsIn text.toList) :
    occurrences = scan text := by
  let before (first second : Occurrence) : Prop :=
    first.start < second.start
  have hIrrefl : Std.Irrefl before :=
    ⟨fun occurrence => Nat.lt_irrefl occurrence.start⟩
  have hAntisymm : Std.Antisymm before :=
    ⟨fun _ _ hLt hGt => absurd hLt (Nat.lt_asymm hGt)⟩
  have hScan : (scan text).Pairwise before :=
    (scan_pairwise text).imp And.left
  apply List.Pairwise.eq_of_mem_iff hOrder hScan
  intro occurrence
  rw [hMem, mem_scan_iff]

/-
  Two texts put behind one another have the placeholders of
  the first and, behind them, those of the second, unless the
  first one ends in a cut opener or in a draft.
-/
theorem scan_append
    {first : String}
    (hOpener : ¬ EndsInCutOpener first.toList)
    (hDraft :
      draftAt? first (Text.size first.toList) = none)
    (second : String) :
    scan (first ++ second) =
      scan first ++
        (scan second).map
          (·.shift (Text.size first.toList)) := by
  have hNoDraft :
      ∀ draft : Draft,
        ¬ draft.EndsAt (Text.size first.toList)
          first.toList := by
    intro draft hEnds
    rw [draftAt?_eq_some_iff.mpr hEnds] at hDraft
    simp at hDraft
  symm
  apply eq_scan_of_mem_iff
  · refine List.pairwise_append.mpr ⟨?_, ?_, ?_⟩
    · exact (scan_pairwise first).imp And.left
    · apply List.pairwise_map.mpr
      apply (scan_pairwise second).imp
      intro earlier later hOrder
      exact Nat.add_lt_add_right hOrder.1 _
    · intro earlier hEarlier later hLater
      rcases List.mem_map.mp hLater with ⟨inner, -, rfl⟩
      have hStands := mem_scan_iff.mp hEarlier
      have hLt := hStands.start_lt_finish
      have hLe := hStands.finish_le_size
      simp only [Occurrence.shift]
      omega
  · intro occurrence
    rw [String.toList_append, List.mem_append, mem_scan_iff,
      List.mem_map]
    constructor
    · rintro (hFirst | ⟨inner, hMem, rfl⟩)
      · exact
          (Occurrence.standsIn_append_left_iff
            hFirst.finish_le_size).mpr hFirst
      · exact
          Occurrence.standsIn_shift_iff.mpr
            (mem_scan_iff.mp hMem)
    · intro hStands
      rcases hStands.apart_of_cut hOpener hNoDraft with
        hFirst | hSecond
      · exact
          Or.inl
            ((Occurrence.standsIn_append_left_iff
              hFirst).mp hStands)
      · rcases
          Occurrence.exists_shift_eq hSecond
            (Nat.le_of_lt hStands.start_lt_finish) with
          ⟨inner, rfl⟩
        exact
          Or.inr
            ⟨inner,
              mem_scan_iff.mpr
                (Occurrence.standsIn_shift_iff.mp hStands),
              rfl⟩

end Placeholder

end DottedRef
