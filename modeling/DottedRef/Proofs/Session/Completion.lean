import Mathlib
import DottedRef.Proofs.Engine.Diagnostics
import DottedRef.Proofs.Placeholder.Draft
import DottedRef.Proofs.Session.Reachable

/-
  This file proves that a key that is offered keeps what it
  promises: put in place of the segment being typed and
  closed, it makes a placeholder whose hover text is the
  detail that was offered with it.

  Main declarations:
    * `Json.Node.KeysUnique.of_leadsTo`
    * `Engine.completion_eq_labels`
    * `Engine.exists_of_mem_completionItems`
    * `Session.accepted_completion`
-/

namespace DottedRef

------------------------------------------------------------
-- Keys Along a Path
------------------------------------------------------------

/- What a path leads to has unique keys as well. -/
theorem Json.Node.KeysUnique.of_leadsTo
    {node target : Node}
    {path : List String}
    (h : node.KeysUnique)
    (hPath : node.LeadsTo path target) :
    target.KeysUnique := by
  induction hPath with
  | here => exact h
  | down hChild _ _ ih => exact ih (h.of_get? hChild)

/- The data of a document with unique keys has unique keys. -/
theorem Document.keysUnique_data
    {document : Document}
    (h : document.root.KeysUnique) :
    document.data.KeysUnique := by
  unfold data
  cases hData : document.setting? "data" with
  | none => exact .null
  | some node =>
      unfold setting? at hData
      rcases Option.bind_eq_some_iff.mp hData with
        ⟨settings, hSettings, hNode⟩
      exact (h.of_get? hSettings).of_get? hNode

------------------------------------------------------------
-- Offers
------------------------------------------------------------

namespace Engine

/- The keys offered are those offered with a value. -/
theorem completion_eq_labels
    (engine : Engine)
    (text : String)
    (caret : Nat) :
    engine.completion text caret =
      (engine.completionItems text caret).map (·.label) := by
  unfold completion completionItems
  rw [List.map_map]
  apply List.map_congr_left
  intro pair _
  rfl

/-
  What is offered is a pair of the object that the complete
  segments of the draft lead to.
-/
theorem exists_of_mem_completionItems
    {engine : Engine}
    {document : Document}
    {text : String}
    {caret : Nat}
    {draft : Placeholder.Draft}
    {item : CompletionItem}
    (hLoaded : engine.current? = some document)
    (hDraft : Placeholder.draftAt? text caret = some draft)
    (hItem : item ∈ engine.completionItems text caret) :
    ∃ pairs value,
      document.data.resolve draft.parentPath =
          .resolved (.object pairs) ∧
        (item.label, value) ∈ pairs ∧
        item.detail = value.render := by
  unfold completionItems candidates draftLookup? at hItem
  rw [hLoaded, hDraft] at hItem
  rcases List.mem_map.mp hItem with ⟨⟨key, value⟩, hPair, rfl⟩
  split at hPair
  · rename_i pairs hResolve
    exact ⟨pairs, value, Option.some.inj hResolve, hPair, rfl⟩
  · simp at hPair

end Engine

------------------------------------------------------------
-- Acceptance
------------------------------------------------------------

namespace Session

/-
  The keys offered at a caret are the labels of the items. An
  item whose label is a segment, put in place of the segment
  being typed and closed, makes a placeholder that starts
  where the draft does. Its hover text is the detail of the
  item, unless the value is null or false.
-/
theorem accepted_completion
    {session : Session}
    {document : Document}
    {text : String}
    {caret : Nat}
    {draft : Placeholder.Draft}
    (hReachable : session.Reachable)
    (hLoaded : session.engine.current? = some document)
    (hDraft : Placeholder.draftAt? text caret = some draft)
    (hParent : ∀ segment ∈ draft.parentPath, segment ≠ "") :
    let engine := session.engine
    let items := engine.completionItems text caret
    engine.completion text caret = items.map (·.label) ∧
      ∃ head : String,
        Text.before? (caret - Text.size draft.stem.toList)
            text.toList = some head.toList ∧
          ∀ item ∈ items, Placeholder.IsSegment item.label →
            ∀ rest : String,
              let edited := head ++ item.label ++ ")" ++ rest
              ∃ occurrence ∈ Placeholder.scan edited,
                occurrence.start = draft.start ∧
                occurrence.path =
                    draft.parentPath ++ [item.label] ∧
                ∃ node value,
                  document.data.resolve draft.parentPath =
                      .resolved node ∧
                  node.get? item.label = some value ∧
                  ∀ offset,
                    Text.isOffset offset edited.toList →
                      occurrence.start < offset →
                        offset ≤ occurrence.finish →
                          (value = .null ∨
                              value = .boolean false →
                            engine.hover edited offset =
                              some ("key \"" ++ item.label ++
                                "\" does not exist")) ∧
                          (value ≠ .null ∧
                              value ≠ .boolean false →
                            engine.hover edited offset =
                              some item.detail) := by
  intro engine items
  have hEnds := Placeholder.draftAt?_eq_some_iff.mp hDraft
  rcases hEnds.before?_stem with ⟨before, -, hHead⟩
  refine
    ⟨engine.completion_eq_labels text caret,
      String.ofList (before ++ Placeholder.opener ++
        Placeholder.stemPrefix draft.parentPath),
      by rw [hHead, String.toList_ofList], ?_⟩
  intro item hItem hSegment rest edited
  rcases
    hEnds.exists_occurrence hHead hParent hSegment
      rest.toList with
    ⟨occurrence, hStands, hStart, hPath⟩
  have hMem : occurrence ∈ Placeholder.scan edited := by
    apply Placeholder.mem_scan_iff.mpr
    simpa [edited] using hStands
  rcases
    Engine.exists_of_mem_completionItems hLoaded hDraft
      hItem with
    ⟨pairs, value, hNode, hPair, hDetail⟩
  -- Listing pairs and looking keys up agree on unique keys.
  have hUnique : (Json.Node.object pairs).KeysUnique :=
    (Document.keysUnique_data
      (hReachable.keysUnique hLoaded)).of_leadsTo
        (Json.Node.resolve_eq_resolved_iff.mp hNode)
  have hValue := hUnique.get?_of_mem hPair
  refine
    ⟨occurrence, hMem, hStart, hPath, .object pairs, value,
      hNode, hValue, ?_⟩
  intro offset hOffset hAfter hFinish
  have hHover :=
    Engine.hover_of_mem hLoaded hMem hOffset hAfter hFinish
  rcases Json.Node.resolve_concat hNode hValue with
    ⟨hMissing, hCounts⟩
  rw [hPath] at hHover
  constructor
  · intro hFalsy
    rw [hMissing hFalsy] at hHover
    exact hHover
  · intro hTruthy
    rw [hCounts hTruthy] at hHover
    rw [hDetail]
    exact hHover

/-
  Where `b` is typed and `a` and `b` are offered, accepting
  `a` makes a placeholder that shows the value of `a`.
-/
theorem accepted_completion_of_first :
    let source :=
      "\x7b\"placeholder\":\x7b\"data\":" ++
        "\x7b\"a\":\"x\",\"b\":null\x7d\x7d\x7d"
    let session :=
      ((Session.new (.new "p.json" .host) (.exact [])
        none).act (.storeReload source.toUTF8.toList)).1
    session.engine.completion "$(mcp.b" 7 = ["a", "b"] ∧
      session.engine.hover "$(mcp.a)" 8 = some "\"x\"" := by
  intro source session
  have hReachable : session.Reachable :=
    .act _ (.new "p.json" .host (.exact []) none)
  have hLoaded :
      session.engine.current? =
        some ⟨.object
          [("placeholder", .object
            [("data", .object
              [("a", .string "x"), ("b", .null)])])]⟩ := by
    cbv
  have hDraft :
      Placeholder.draftAt? "$(mcp.b" 7 = some ⟨0, ["b"]⟩ := by
    decide
  have hItems :
      session.engine.completionItems "$(mcp.b" 7 =
        [⟨"a", "\"x\""⟩, ⟨"b", "null"⟩] := by
    cbv
  rcases
    accepted_completion hReachable hLoaded hDraft (by decide)
      with
    ⟨hKeys, head, hHead, hEach⟩
  have hBefore :
      Text.before? 6 "$(mcp.b".toList =
        some "$(mcp.".toList := by
    decide
  have hName : head = "$(mcp." := by
    apply String.toList_inj.mp
    exact Option.some.inj (hHead.symm.trans hBefore)
  have hSegment : Placeholder.IsSegment "a" := by
    simp [Placeholder.IsSegment, Placeholder.IsPlain]
  have hScan :
      Placeholder.scan "$(mcp.a)" = [⟨0, 8, ["a"]⟩] := by
    cbv
  subst hName
  rcases
    hEach ⟨"a", "\"x\""⟩ (by simp [hItems]) hSegment "" with
    ⟨occurrence, hMem, -, -, node, value, hNode, hValue,
      hHover⟩
  replace hMem : occurrence ∈ Placeholder.scan "$(mcp.a)" :=
    hMem
  rw [hScan, List.mem_singleton] at hMem
  subst hMem
  cases hNode
  cases hValue
  refine ⟨by rw [hKeys, hItems]; rfl, ?_⟩
  exact
    (hHover 8 (by decide) (by decide) (by decide)).2
      (by simp)

end Session

end DottedRef
