import DottedRef.Proofs.Resolution.Descent

/-
  This file proves at which segment a path breaks and what it
  leads to if it does not, and that a path made of two is
  resolved by resolving them one after the other.

  Key definitions include:
    * `Resolution.shift`
    * `Json.Node.descend?`
    * `Json.Node.BreaksAt`

  Key theorems include:
    * `Json.Node.lacks_iff`
    * `Json.Node.resolve_eq_broken_iff_breaksAt`
    * `Json.Node.LeadsTo.descend?_eq`
    * `Json.Node.resolve_append`
    * `Json.Node.resolution_exact`
-/

namespace DottedRef

/-
  The same resolution with its index counted from the given
  number of segments before.
-/
def Resolution.shift
    (places : Nat) : Resolution → Resolution
  | resolved node => .resolved node
  | broken index segment => .broken (places + index) segment

namespace Json.Node

------------------------------------------------------------
-- Where a Path Breaks
------------------------------------------------------------

/- Nothing is found under what is no key, and only then. -/
theorem get?_eq_none_iff
    {node : Node}
    {key : String} :
    node.get? key = none ↔ key ∉ node.keys := by
  cases node with
  | object pairs =>
      change
        pairs.lookup key = none ↔ key ∉ pairs.map Prod.fst
      rw [List.lookup_eq_none_iff]
      constructor
      · intro h hMem
        rcases List.mem_map.mp hMem with ⟨pair, hPair, rfl⟩
        simpa using h pair hPair
      · intro h pair hPair
        rw [bne_iff_ne]
        rintro rfl
        exact h (List.mem_map_of_mem hPair)
  | _ => simp [get?, keys]

/-
  A key is lacking if it is none or the key of null or false.
-/
theorem lacks_iff
    {node : Node}
    {segment : String} :
    node.Lacks segment ↔
      segment ∉ node.keys ∨
        node.get? segment = some .null ∨
        node.get? segment = some (.boolean false) := by
  unfold Lacks
  rw [← get?_eq_none_iff]
  cases hChild : node.get? segment with
  | none => simp
  | some child => simp

/-
  A path breaks at one of its segments if the segments before
  it resolve to a node in which it is no key or the key of
  null or false.
-/
def BreaksAt
    (node : Node)
    (path : List String)
    (index : Nat)
    (segment : String) : Prop :=
  index < path.length ∧
    path[index]? = some segment ∧
      ∃ middle,
        node.resolve (path.take index) = .resolved middle ∧
          (segment ∉ middle.keys ∨
            middle.get? segment = some .null ∨
            middle.get? segment = some (.boolean false))

/- Resolving tells where a path breaks. -/
theorem resolve_eq_broken_iff_breaksAt
    {node : Node}
    {path : List String}
    {index : Nat}
    {segment : String} :
    node.resolve path = .broken index segment ↔
      node.BreaksAt path index segment := by
  rw [resolve_eq_broken_iff]
  constructor
  · rintro ⟨before, after, middle, rfl, rfl, hLeads, hLacks⟩
    refine ⟨?_, ?_, middle, ?_, lacks_iff.mp hLacks⟩
    · rw [List.length_append, List.length_cons]
      omega
    · rw [List.getElem?_append_right (Nat.le_refl _)]
      simp
    · rw [List.take_left]
      exact resolve_eq_resolved_iff.mpr hLeads
  · rintro ⟨hIndex, hSegment, middle, hMiddle, hMissing⟩
    rw [List.getElem?_eq_getElem hIndex,
      Option.some.injEq] at hSegment
    refine
      ⟨path.take index, path.drop (index + 1), middle, ?_, ?_,
        resolve_eq_resolved_iff.mp hMiddle,
        lacks_iff.mpr hMissing⟩
    · rw [← hSegment, List.getElem_cons_drop,
        List.take_append_drop]
    · rw [List.length_take]
      omega

------------------------------------------------------------
-- The End of a Path
------------------------------------------------------------

/-
  The node at the end of the keys of a path, whatever the
  values on the way are.
-/
def descend?
    (node : Node) : List String → Option Node
  | [] => some node
  | segment :: path =>
      (node.get? segment).bind (·.descend? path)

/- A path leads to the end of its keys. -/
theorem LeadsTo.descend?_eq
    {node target : Node}
    {path : List String}
    (h : node.LeadsTo path target) :
    node.descend? path = some target := by
  induction h with
  | here => rfl
  | down hChild _ _ ih =>
      rw [descend?, hChild, Option.bind_some, ih]

/- What a path with a segment leads to counts. -/
theorem LeadsTo.counts
    {node target : Node}
    {path : List String}
    (h : node.LeadsTo path target)
    (hPath : path ≠ []) :
    target ≠ .null ∧ target ≠ .boolean false := by
  induction h with
  | here => exact absurd rfl hPath
  | @down _ _ _ _ path _ hCounts hLeads ih =>
      cases path with
      | nil =>
          cases hLeads
          exact hCounts
      | cons segment path => exact ih (List.cons_ne_nil _ _)

------------------------------------------------------------
-- Paths Made of Two
------------------------------------------------------------

/- Counting from a later index shifts what is found. -/
theorem resolveFrom_eq_shift
    (places index : Nat)
    (node : Node)
    (path : List String) :
    node.resolveFrom (places + index) path =
      (node.resolveFrom index path).shift places := by
  induction path generalizing index node with
  | nil => rfl
  | cons segment path ih =>
      rcases node.lacks_or_leads segment with
        hLacks | ⟨child, hChild, hCounts⟩
      · rw [resolveFrom_of_lacks hLacks,
          resolveFrom_of_lacks hLacks]
        rfl
      · rw [resolveFrom_of_leads hChild hCounts,
          resolveFrom_of_leads hChild hCounts]
        exact ih (index + 1) child

/-
  A path goes on from where its first part leads to, and a
  first part that breaks decides the path.
-/
theorem resolve_append
    (node : Node)
    (first last : List String) :
    node.resolve (first ++ last) =
      match node.resolve first with
      | .resolved target =>
          (target.resolve last).shift first.length
      | .broken index segment => .broken index segment := by
  unfold resolve
  rw [resolveFrom_append]
  cases node.resolveFrom 0 first with
  | broken index segment => rfl
  | resolved target =>
      dsimp only
      rw [Nat.add_comm, resolveFrom_eq_shift]

/-
  A path breaks at the first segment that is lacking and
  resolves to the end of its keys if there is none. Resolving
  goes on from what a first part leads to, and a broken first
  part stays broken. Null and false are found as the start of
  an empty path only.
-/
theorem resolution_exact
    (root : Node)
    (path : List String) :
    (∀ index segment,
      root.resolve path = .broken index segment ↔
        root.BreaksAt path index segment) ∧
    ((∀ index segment,
        ¬ root.BreaksAt path index segment) →
      ∃ node, root.resolve path = .resolved node ∧
        root.descend? path = some node) ∧
    (∀ node, root.resolve path = .resolved node →
      ∀ more,
        root.resolve (path ++ more) =
          (node.resolve more).shift path.length) ∧
    (∀ index segment,
      root.resolve path = .broken index segment →
        ∀ more,
          root.resolve (path ++ more) =
            .broken index segment) ∧
    (∀ node, root.resolve path = .resolved node →
      path ≠ [] → node ≠ .null ∧ node ≠ .boolean false) ∧
    root.resolve [] = .resolved root := by
  refine ⟨?_, ?_, ?_, ?_, ?_, rfl⟩
  · intro index segment
    exact resolve_eq_broken_iff_breaksAt
  · intro hWhole
    cases hResolve : root.resolve path with
    | resolved node =>
        have hLeads := resolve_eq_resolved_iff.mp hResolve
        exact ⟨node, rfl, hLeads.descend?_eq⟩
    | broken index segment =>
        exact
          absurd (resolve_eq_broken_iff_breaksAt.mp hResolve)
            (hWhole index segment)
  · intro node hResolve more
    rw [resolve_append, hResolve]
  · intro index segment hResolve more
    rw [resolve_append, hResolve]
  · intro node hResolve hPath
    exact (resolve_eq_resolved_iff.mp hResolve).counts hPath

/-
  The second segment of `a.off.x` is the key of false, and so
  it is in every longer path, while `a.on` leads to a value
  that every longer path goes on from.
-/
theorem resolution_exact_of_false :
    let root : Node :=
      .object
        [("a", .object
          [("on", .boolean true), ("off", .boolean false)])]
    root.BreaksAt ["a", "off", "x"] 1 "off" ∧
      (∀ more,
        root.resolve (["a", "off", "x"] ++ more) =
          .broken 1 "off") ∧
      (∃ node,
        root.resolve ["a", "on"] = .resolved node ∧
          root.descend? ["a", "on"] = some node ∧
          node ≠ .null ∧ node ≠ .boolean false) ∧
      ∀ more,
        root.resolve (["a", "on"] ++ more) =
          ((Node.boolean true).resolve more).shift 2 := by
  intro root
  have hOn :
      root.resolve ["a", "on"] = .resolved (.boolean true) :=
    rfl
  have hOff :
      root.resolve ["a", "off", "x"] = .broken 1 "off" :=
    rfl
  rcases resolution_exact root ["a", "on"] with
    ⟨hBreaks, hWhole, hMore, -, hCounts, -⟩
  rcases resolution_exact root ["a", "off", "x"] with
    ⟨hOffBreaks, -, -, hBroken, -⟩
  have hNowhere :
      ∀ index segment,
        ¬ root.BreaksAt ["a", "on"] index segment := by
    intro index segment hBreak
    have hResolve := (hBreaks index segment).mpr hBreak
    rw [hOn] at hResolve
    simp at hResolve
  rcases hWhole hNowhere with ⟨node, hResolve, hDescend⟩
  exact
    ⟨(hOffBreaks 1 "off").mp hOff, hBroken 1 "off" hOff,
      ⟨node, hResolve, hDescend,
        hCounts node hResolve (List.cons_ne_nil _ _)⟩,
      hMore _ hOn⟩

end Json.Node

end DottedRef
