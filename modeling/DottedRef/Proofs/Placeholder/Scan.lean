import DottedRef.Proofs.Placeholder.Grammar

/-
  This file proves that a scan finds exactly the placeholders
  that stand in a text, in order.

  The proof follows the search: each attempt decides about all
  occurrences up to the offset at which the next one starts.

  Main declarations:
    * `Placeholder.attempt?_spec`
    * `Placeholder.mem_scanFrom_iff`
    * `Placeholder.scanFrom_pairwise`
    * `Placeholder.scan_exact`
-/

namespace DottedRef

namespace Placeholder

------------------------------------------------------------
-- Attempts
------------------------------------------------------------

/-
  Past a cut, an occurrence stands behind some skipped part of
  the rest.
-/
theorem Occurrence.StandsIn.exists_skipped
    {before rest : List Char}
    {occurrence : Occurrence}
    (h : occurrence.StandsIn (before ++ rest))
    (hStart : Text.size before ≤ occurrence.start) :
    ∃ skipped after,
      skipped ++ opener ++
          (body occurrence.path ++ ')' :: after) = rest ∧
        Text.size before + Text.size skipped =
          occurrence.start := by
  rcases standsIn_iff.mp h with
    ⟨-, before', after, hText, hBefore, -⟩
  rcases Text.exists_between hText.symm (by omega) with
    ⟨skipped, hSkipped, hRest⟩
  refine ⟨skipped, after, ?_, ?_⟩
  · rw [hRest, List.append_assoc]
  · rw [← hBefore, hSkipped, Text.size_append]

/- The first opener past a cut comes before any occurrence. -/
theorem Occurrence.StandsIn.firstIndexOf?_le
    {before rest : List Char}
    {occurrence : Occurrence}
    (h : occurrence.StandsIn (before ++ rest))
    (hStart : Text.size before ≤ occurrence.start) :
    ∃ index, Text.firstIndexOf? opener rest = some index ∧
      Text.size before + index ≤ occurrence.start := by
  rcases h.exists_skipped hStart with
    ⟨skipped, after, rfl, hSkipped⟩
  rcases Text.firstIndexOf?_le opener_ne_nil with
    ⟨index, hLe, hIndex⟩
  exact ⟨index, hIndex, by omega⟩

/-
  What is read behind an opener is the occurrence that stands
  there.
-/
theorem readBody?_eq_some_iff
    {before tail : List Char}
    {occurrence : Occurrence} :
    readBody? (Text.size before)
        (Text.size before + openerSize) [] [] tail =
          some occurrence ↔
      occurrence.StandsIn (before ++ (opener ++ tail)) ∧
        occurrence.start = Text.size before := by
  constructor
  · intro h
    rcases readBody?_sound (by simp) h with
      ⟨more, after, hMore, hTail, hStart, hPath, hFinish⟩
    rw [List.nil_append] at hTail hPath
    subst hTail
    subst hPath
    refine ⟨Occurrence.standsIn_iff.mpr ?_, hStart⟩
    refine ⟨hMore, before, after, rfl, hStart.symm, ?_⟩
    rw [hStart, ← hFinish]
    rfl
  · intro h
    rcases h with ⟨hStands, hStart⟩
    rcases Occurrence.standsIn_iff.mp hStands with
      ⟨hPath, before', after, hText, hBefore, hFinish⟩
    have hRest := (Text.append_inj hText (by omega)).2
    have hTail := List.append_cancel_left hRest
    rw [← hTail, readBody?_complete hPath, ← hStart, hFinish,
      List.nil_append]

/-
  What an attempt decides. Nothing stands where no opener is
  found, and nothing starts before the first opener; the
  occurrence found there is the only one that starts there.
-/
theorem attempt?_spec
    {text : List Char}
    {position : Nat}
    (hOffset : Text.isOffset position text) :
    match attempt? text position with
    | none => False
    | some .finished =>
        ∀ occurrence : Occurrence, occurrence.StandsIn text →
          occurrence.start < position
    | some (.missed start) =>
        position ≤ start ∧ Text.isOffset (start + 1) text ∧
          ∀ occurrence : Occurrence,
            occurrence.StandsIn text →
              position ≤ occurrence.start →
                start + 1 ≤ occurrence.start
    | some (.found found) =>
        position ≤ found.start ∧ found.StandsIn text ∧
          ∀ occurrence : Occurrence,
            occurrence.StandsIn text →
              position ≤ occurrence.start →
                occurrence = found ∨
                  found.finish ≤ occurrence.start := by
  rcases Text.isOffset_iff.mp hOffset with
    ⟨before, rest, rfl, rfl⟩
  have hAfter :
      Text.after? (Text.size before) (before ++ rest) =
        some rest :=
    Text.after?_eq_some_iff.mpr ⟨before, rfl, rfl⟩
  unfold attempt?
  cases hIndex : Text.firstIndexOf? opener rest with
  | none =>
      simp only [hAfter, hIndex]
      intro occurrence hStands
      apply Nat.lt_of_not_le
      intro hStart
      rcases hStands.firstIndexOf?_le hStart with
        ⟨index, hFound, -⟩
      rw [hIndex] at hFound
      simp at hFound
  | some index =>
      rcases Text.exists_of_firstIndexOf? hIndex with
        ⟨skipped, tail, hRest, rfl⟩
      have hText :
          before ++ rest =
            before ++ skipped ++ (opener ++ tail) := by
        simp [← hRest]
      have hHead :
          Text.size before + Text.size skipped =
            Text.size (before ++ skipped) :=
        (Text.size_append ..).symm
      have hTail :
          Text.after?
              (Text.size (before ++ skipped) + openerSize)
              (before ++ rest) = some tail := by
        refine
          Text.after?_eq_some_iff.mpr
            ⟨before ++ skipped ++ opener, ?_, ?_⟩
        · rw [hText, List.append_assoc]
        · rw [Text.size_append, size_opener]
      have hFirst :
          ∀ occurrence : Occurrence,
            occurrence.StandsIn (before ++ rest) →
              Text.size before ≤ occurrence.start →
                Text.size (before ++ skipped) ≤
                  occurrence.start := by
        intro occurrence hStands hStart
        rcases hStands.firstIndexOf?_le hStart with
          ⟨index, hFound, hLe⟩
        rw [hIndex, Option.some.injEq] at hFound
        omega
      simp only [hAfter, hIndex, hHead, hTail]
      cases hRead :
          readBody? (Text.size (before ++ skipped))
            (Text.size (before ++ skipped) + openerSize)
            [] [] tail with
      | none =>
          refine ⟨by omega, ?_, ?_⟩
          · rw [hText]
            refine
              Text.isOffset_iff.mpr
                ⟨before ++ skipped ++ ['$'],
                  opener.tail ++ tail, ?_, ?_⟩
            · simp [opener]
            · rw [Text.size_append]
              rfl
          · intro occurrence hStands hStart
            have hLe := hFirst occurrence hStands hStart
            have hNe :
                occurrence.start ≠
                  Text.size (before ++ skipped) := by
              intro hEq
              rw [hText] at hStands
              have hSome :=
                readBody?_eq_some_iff.mpr ⟨hStands, hEq⟩
              rw [hRead] at hSome
              simp at hSome
            omega
      | some found =>
          rcases readBody?_eq_some_iff.mp hRead with
            ⟨hFound, hStart⟩
          refine ⟨by omega, by rw [hText]; exact hFound, ?_⟩
          intro occurrence hStands hPosition
          have hLe := hFirst occurrence hStands hPosition
          rw [hText] at hStands
          by_cases hEq : occurrence.start = found.start
          · have hSome :=
              readBody?_eq_some_iff.mpr
                ⟨hStands, hEq.trans hStart⟩
            rw [hRead, Option.some.injEq] at hSome
            exact Or.inl hSome.symm
          · exact
              Or.inr
                (hFound.finish_le_start hStands (by omega))

------------------------------------------------------------
-- Scans
------------------------------------------------------------

/- An occurrence ends past its start. -/
theorem Occurrence.StandsIn.start_lt_finish
    {text : List Char}
    {occurrence : Occurrence}
    (h : occurrence.StandsIn text) :
    occurrence.start < occurrence.finish := by
  rcases standsIn_iff.mp h with ⟨-, -, -, -, -, hFinish⟩
  omega

/- A text can be cut where an occurrence starts. -/
theorem Occurrence.StandsIn.isOffset_start
    {text : List Char}
    {occurrence : Occurrence}
    (h : occurrence.StandsIn text) :
    Text.isOffset occurrence.start text := by
  rcases Text.slice?_eq_some_iff.mp h.2 with
    ⟨before, after, rfl, hStart, -⟩
  rw [List.append_assoc]
  exact Text.isOffset_iff.mpr ⟨before, _, rfl, hStart⟩

/- A text can be cut where an occurrence ends. -/
theorem Occurrence.StandsIn.isOffset_finish
    {text : List Char}
    {occurrence : Occurrence}
    (h : occurrence.StandsIn text) :
    Text.isOffset occurrence.finish text := by
  rcases Text.slice?_eq_some_iff.mp h.2 with
    ⟨before, after, rfl, -, hFinish⟩
  refine Text.isOffset_iff.mpr ⟨_, after, rfl, ?_⟩
  rw [Text.size_append, hFinish]

/-
  From a usable offset on, a scan finds the occurrences that
  start there or later.
-/
theorem mem_scanFrom_iff
    {text : List Char}
    {position : Nat}
    {occurrence : Occurrence}
    (hOffset : Text.isOffset position text) :
    occurrence ∈ scanFrom text position ↔
      occurrence.StandsIn text ∧
        position ≤ occurrence.start := by
  fun_induction scanFrom text position with
  | case1 position h =>
      have hSpec := attempt?_spec hOffset
      rw [h] at hSpec
      exact hSpec.elim
  | case2 position h =>
      have hSpec := attempt?_spec hOffset
      simp only [h] at hSpec
      constructor
      · intro hMem
        simp at hMem
      · intro hStands
        have hLt := hSpec occurrence hStands.1
        omega
  | case3 position start h ih =>
      have hSpec := attempt?_spec hOffset
      simp only [h] at hSpec
      rcases hSpec with ⟨hLe, hNext, hSkip⟩
      rw [ih hNext]
      constructor
      · intro hStands
        exact ⟨hStands.1, by omega⟩
      · intro hStands
        exact
          ⟨hStands.1,
            hSkip occurrence hStands.1 hStands.2⟩
  | case4 position found h ih =>
      have hSpec := attempt?_spec hOffset
      simp only [h] at hSpec
      rcases hSpec with ⟨hLe, hFound, hOthers⟩
      have hBefore := hFound.start_lt_finish
      rw [List.mem_cons, ih hFound.isOffset_finish]
      constructor
      · intro hMem
        rcases hMem with rfl | hMem
        · exact ⟨hFound, hLe⟩
        · exact ⟨hMem.1, by omega⟩
      · intro hStands
        rcases hOthers occurrence hStands.1 hStands.2 with
          hEq | hAfter
        · exact Or.inl hEq
        · exact Or.inr ⟨hStands.1, hAfter⟩

/- A scan lists occurrences in order and apart. -/
theorem scanFrom_pairwise
    {text : List Char}
    {position : Nat}
    (hOffset : Text.isOffset position text) :
    (scanFrom text position).Pairwise
      fun first second => first.finish ≤ second.start := by
  fun_induction scanFrom text position with
  | case1 => exact List.Pairwise.nil
  | case2 => exact List.Pairwise.nil
  | case3 position start h ih =>
      have hSpec := attempt?_spec hOffset
      simp only [h] at hSpec
      exact ih hSpec.2.1
  | case4 position found h ih =>
      have hSpec := attempt?_spec hOffset
      simp only [h] at hSpec
      have hNext := hSpec.2.1.isOffset_finish
      refine List.Pairwise.cons ?_ (ih hNext)
      intro occurrence hMem
      exact ((mem_scanFrom_iff hNext).mp hMem).2

/- The start of a text is usable. -/
theorem isOffset_zero
    (text : List Char) :
    Text.isOffset 0 text :=
  Text.isOffset_iff.mpr ⟨[], text, rfl, rfl⟩

/- A scan finds what stands in its text. -/
theorem mem_scan_iff
    {text : String}
    {occurrence : Occurrence} :
    occurrence ∈ scan text ↔
      occurrence.StandsIn text.toList := by
  unfold scan
  rw [mem_scanFrom_iff (isOffset_zero _)]
  constructor
  · intro h
    exact h.1
  · intro h
    exact ⟨h, Nat.zero_le _⟩

/- Occurrences in a scan come in order. -/
theorem scan_pairwise
    (text : String) :
    (scan text).Pairwise fun first second =>
      first.start < second.start ∧
        first.finish ≤ second.start := by
  have hApart := scanFrom_pairwise (isOffset_zero text.toList)
  refine List.Pairwise.imp_of_mem ?_ hApart
  intro first second hFirst _ hLe
  have hLt := (mem_scan_iff.mp hFirst).start_lt_finish
  exact ⟨by omega, hLe⟩

/-
  A scan finds exactly the placeholders of the grammar, each
  once, from left to right and without overlap. Unclosed and
  malformed openers hide none of them.
-/
theorem scan_exact
    (text : String) :
    (∀ start finish path,
        (∃ occurrence ∈ scan text,
            occurrence.start = start ∧
              occurrence.finish = finish ∧
                occurrence.rawPath = "mcp" :: path) ↔
          IsPath path ∧
            Text.slice? start finish text.toList =
              some (written path).toList) ∧
      (scan text).Pairwise
        (fun first second =>
          first.start < second.start ∧
            first.finish ≤ second.start) ∧
      ∀ occurrence ∈ scan text,
        Text.isOffset occurrence.start text.toList ∧
          Text.isOffset occurrence.finish text.toList := by
  refine ⟨?_, scan_pairwise text, ?_⟩
  · intro start finish path
    constructor
    · intro h
      rcases h with ⟨occurrence, hMem, rfl, rfl, hRaw⟩
      have hPath : occurrence.path = path :=
        List.tail_eq_of_cons_eq hRaw
      rw [← hPath]
      exact mem_scan_iff.mp hMem
    · intro h
      exact
        ⟨⟨start, finish, path⟩, mem_scan_iff.mpr h,
          rfl, rfl, rfl⟩
  · intro occurrence hMem
    have hStands := mem_scan_iff.mp hMem
    exact ⟨hStands.isOffset_start, hStands.isOffset_finish⟩

example :
    scan "$(mcp.a $(mcp.é.b)$(mcp.c)" =
      [⟨8, 19, ["é", "b"]⟩, ⟨19, 27, ["c"]⟩] := by
  cbv

end Placeholder

end DottedRef
