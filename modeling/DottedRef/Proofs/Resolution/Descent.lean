import DottedRef.Resolution

/-
  This file states the descent along a path as a relation and
  proves that resolving finds its end, or the first segment at
  which there is no way on.

  Key definitions include:
    * `Json.Node.LeadsTo`
    * `Json.Node.Lacks`

  Key theorems include:
    * `Json.Node.resolveFrom_append`
    * `Json.Node.resolve_eq_resolved_iff`
    * `Json.Node.resolve_eq_broken_iff`
    * `Json.Node.resolve_concat`
-/

namespace DottedRef

namespace Json.Node

------------------------------------------------------------
-- Descent
------------------------------------------------------------

/-
  A node leads to another along a path if each segment is the
  key of a value that is neither null nor false.
-/
inductive LeadsTo : Node → List String → Node → Prop
  | here
      {node : Node} :
      LeadsTo node [] node
  | down
      {node child target : Node}
      {segment : String}
      {path : List String}
      (hChild : node.get? segment = some child)
      (hCounts : child ≠ .null ∧ child ≠ .boolean false)
      (hPath : LeadsTo child path target) :
      LeadsTo node (segment :: path) target

/-
  A node lacks a key that it does not have or that is the key
  of null or false.
-/
def Lacks
    (node : Node)
    (segment : String) : Prop :=
  ∀ child, node.get? segment = some child →
    child = .null ∨ child = .boolean false

/- Only null and false count as missing. -/
theorem isFalsy_iff
    {node : Node} :
    node.isFalsy = true ↔
      node = .null ∨ node = .boolean false := by
  cases node <;> simp [isFalsy]

/- All but null and false counts. -/
theorem isFalsy_eq_false_iff
    {node : Node} :
    node.isFalsy = false ↔
      node ≠ .null ∧ node ≠ .boolean false := by
  rw [← Bool.not_eq_true, isFalsy_iff, not_or]

/- There is a way on from a node exactly if nothing is lacking. -/
theorem lacks_or_leads
    (node : Node)
    (segment : String) :
    node.Lacks segment ∨
      ∃ child, node.get? segment = some child ∧
        child ≠ .null ∧ child ≠ .boolean false := by
  unfold Lacks
  cases hChild : node.get? segment with
  | none => simp
  | some child =>
      cases hFalsy : child.isFalsy with
      | true =>
          left
          intro other hOther
          rw [← Option.some.inj hOther]
          exact isFalsy_iff.mp hFalsy
      | false =>
          exact
            .inr ⟨child, rfl, isFalsy_eq_false_iff.mp hFalsy⟩

/- A path breaks at a segment that is lacking. -/
theorem resolveFrom_of_lacks
    {index : Nat}
    {node : Node}
    {segment : String}
    {path : List String}
    (h : node.Lacks segment) :
    node.resolveFrom index (segment :: path) =
      .broken index segment := by
  rw [resolveFrom]
  cases hChild : node.get? segment with
  | none => rfl
  | some child =>
      have hFalsy := isFalsy_iff.mpr (h child hChild)
      simp only [hFalsy, if_true]

/- A path goes on from a value that counts. -/
theorem resolveFrom_of_leads
    {index : Nat}
    {node child : Node}
    {segment : String}
    {path : List String}
    (hChild : node.get? segment = some child)
    (hCounts : child ≠ .null ∧ child ≠ .boolean false) :
    node.resolveFrom index (segment :: path) =
      child.resolveFrom (index + 1) path := by
  rw [resolveFrom]
  simp [hChild, isFalsy_eq_false_iff.mpr hCounts]

/- Nothing is lacking where a value counts. -/
theorem not_lacks_of_leads
    {node child : Node}
    {segment : String}
    (hChild : node.get? segment = some child)
    (hCounts : child ≠ .null ∧ child ≠ .boolean false) :
    ¬ node.Lacks segment := by
  intro hLacks
  exact (not_or.mpr hCounts) (hLacks child hChild)

------------------------------------------------------------
-- Resolving
------------------------------------------------------------

/- A path resolves to what it leads to. -/
theorem resolveFrom_eq_resolved_iff
    {index : Nat}
    {node target : Node}
    {path : List String} :
    node.resolveFrom index path = .resolved target ↔
      node.LeadsTo path target := by
  induction path generalizing index node with
  | nil =>
      rw [resolveFrom]
      constructor
      · intro h
        rw [Resolution.resolved.inj h]
        exact .here
      · intro h
        cases h
        rfl
  | cons segment path ih =>
      rcases node.lacks_or_leads segment with
        hLacks | ⟨child, hChild, hCounts⟩
      · rw [resolveFrom_of_lacks hLacks]
        constructor
        · intro h
          simp at h
        · intro h
          cases h with
          | down hChild hCounts _ =>
              exact
                absurd hLacks
                  (not_lacks_of_leads hChild hCounts)
      · rw [resolveFrom_of_leads hChild hCounts, ih]
        constructor
        · intro h
          exact .down hChild hCounts h
        · intro h
          cases h with
          | down hOther _ hPath =>
              rw [hChild, Option.some.injEq] at hOther
              rw [hOther]
              exact hPath

/- A path breaks at the first segment that is lacking. -/
theorem resolveFrom_eq_broken_iff
    {start index : Nat}
    {node : Node}
    {segment : String}
    {path : List String} :
    node.resolveFrom start path = .broken index segment ↔
      ∃ before after middle,
        path = before ++ segment :: after ∧
          index = start + before.length ∧
          node.LeadsTo before middle ∧
          middle.Lacks segment := by
  induction path generalizing start node with
  | nil =>
      rw [resolveFrom]
      simp
  | cons first path ih =>
      rcases node.lacks_or_leads first with
        hLacks | ⟨child, hChild, hCounts⟩
      · rw [resolveFrom_of_lacks hLacks,
          Resolution.broken.injEq]
        constructor
        · rintro ⟨rfl, rfl⟩
          exact ⟨[], path, node, rfl, rfl, .here, hLacks⟩
        · rintro ⟨before, after, middle, hPath, hIndex,
            hLeads, -⟩
          cases hLeads with
          | here =>
              rw [List.nil_append, List.cons.injEq] at hPath
              exact ⟨hIndex.symm, hPath.1⟩
          | down hChild hCounts _ =>
              rw [List.cons_append, List.cons.injEq] at hPath
              rw [← hPath.1] at hChild
              exact
                absurd hLacks
                  (not_lacks_of_leads hChild hCounts)
      · rw [resolveFrom_of_leads hChild hCounts, ih]
        constructor
        · rintro ⟨before, after, middle, rfl, rfl, hLeads,
            hLacks⟩
          refine
            ⟨first :: before, after, middle, rfl, ?_,
              .down hChild hCounts hLeads, hLacks⟩
          rw [List.length_cons]
          omega
        · rintro ⟨before, after, middle, hPath, hIndex,
            hLeads, hLacks⟩
          cases hLeads with
          | here =>
              rw [List.nil_append, List.cons.injEq] at hPath
              rw [← hPath.1] at hLacks
              exact
                absurd hLacks
                  (not_lacks_of_leads hChild hCounts)
          | @down _ other _ _ before hOther _ hLeads =>
              rw [List.cons_append, List.cons.injEq] at hPath
              rw [← hPath.1, hChild, Option.some.injEq]
                at hOther
              rw [← hOther] at hLeads
              refine
                ⟨before, after, middle, hPath.2, ?_, hLeads,
                  hLacks⟩
              rw [hIndex, List.length_cons]
              omega

/-
  Resolving goes on from where a first path leads to, and a
  path that breaks stays broken however it goes on.
-/
theorem resolveFrom_append
    (index : Nat)
    (node : Node)
    (first last : List String) :
    node.resolveFrom index (first ++ last) =
      match node.resolveFrom index first with
      | .resolved target =>
          target.resolveFrom (index + first.length) last
      | .broken place segment => .broken place segment := by
  induction first generalizing index node with
  | nil => simp [resolveFrom]
  | cons segment first ih =>
      rw [List.cons_append]
      rcases node.lacks_or_leads segment with
        hLacks | ⟨child, hChild, hCounts⟩
      · rw [resolveFrom_of_lacks hLacks,
          resolveFrom_of_lacks hLacks]
      · rw [resolveFrom_of_leads hChild hCounts,
          resolveFrom_of_leads hChild hCounts, ih,
          List.length_cons, Nat.add_assoc,
          Nat.add_comm 1 first.length]

/- What a path resolves to from a node. -/
theorem resolve_eq_resolved_iff
    {node target : Node}
    {path : List String} :
    node.resolve path = .resolved target ↔
      node.LeadsTo path target :=
  resolveFrom_eq_resolved_iff

/- Where a path breaks, counted from its start. -/
theorem resolve_eq_broken_iff
    {index : Nat}
    {node : Node}
    {segment : String}
    {path : List String} :
    node.resolve path = .broken index segment ↔
      ∃ before after middle,
        path = before ++ segment :: after ∧
          index = before.length ∧
          node.LeadsTo before middle ∧
          middle.Lacks segment := by
  unfold resolve
  rw [resolveFrom_eq_broken_iff]
  simp only [Nat.zero_add]

/- One more segment leads to its value if that counts. -/
theorem resolve_concat
    {node target child : Node}
    {path : List String}
    {segment : String}
    (hPath : node.resolve path = .resolved target)
    (hChild : target.get? segment = some child) :
    (child = .null ∨ child = .boolean false →
      node.resolve (path ++ [segment]) =
        .broken path.length segment) ∧
    (child ≠ .null ∧ child ≠ .boolean false →
      node.resolve (path ++ [segment]) =
        .resolved child) := by
  unfold resolve at hPath ⊢
  rw [resolveFrom_append, hPath, Nat.zero_add]
  constructor
  · intro hMissing
    apply resolveFrom_of_lacks
    intro other hOther
    rw [hChild, Option.some.injEq] at hOther
    rw [← hOther]
    exact hMissing
  · intro hCounts
    exact resolveFrom_of_leads hChild hCounts

end Json.Node

end DottedRef
