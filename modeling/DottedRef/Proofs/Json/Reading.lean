import DottedRef.Json.Parser

/-
  This file proves by one induction what the reader of values
  keeps: a property of trees that goes from the parts of a
  tree to the tree holds of all that is read.

  Key definitions include:
    * `Json.ReadClosed`

  Key theorems include:
    * `Json.ReadClosed.readNode`
    * `Json.ReadClosed.parse`
-/

namespace DottedRef

namespace Json

/- A reader of two parts has read both if it succeeds. -/
theorem exists_of_bind_eq_ok
    {ε α β : Type}
    {first : Except ε α}
    {next : α → Except ε β}
    {last : β}
    (h : (first >>= next) = .ok last) :
    ∃ value, first = .ok value ∧ next value = .ok last := by
  cases first with
  | error fault =>
      simp [bind, Except.bind] at h
  | ok value => exact ⟨value, rfl, h⟩

/-
  A property of trees is closed under reading if scalars have
  it, and arrays and objects have it whose parts have it. It
  may depend on how many arrays and objects there is room for.
-/
structure ReadClosed
    (P : Nat → Node → Prop) : Prop where
  null : ∀ depth, P depth .null
  boolean : ∀ depth value, P depth (.boolean value)
  number : ∀ depth value, P depth (.number value)
  string : ∀ depth value, P depth (.string value)
  array :
    ∀ depth items, (∀ item ∈ items, P depth item) →
      P (depth + 1) (.array items)
  ofEntries :
    ∀ depth entries, (∀ entry ∈ entries, P depth entry.2) →
      P (depth + 1) (.ofEntries entries)

namespace ReadClosed

variable {P : Nat → Node → Prop}

mutual

/- A closed property holds of a value that is read. -/
theorem readNode
    (hClosed : ReadClosed P)
    {depth : Nat}
    {source : List UInt8}
    {read : Read source.length Node}
    (h : Json.readNode depth source = .ok read) :
    P depth read.value := by
  rw [Json.readNode] at h
  split at h
  · simp at h
  · rename_i byte rest hSource
    have hRest := length_lt_of_skipBlanks hSource
    dsimp only at h
    split at h
    · rcases exists_of_bind_eq_ok h with ⟨word, -, hRead⟩
      cases hRead
      exact hClosed.null depth
    split at h
    · rcases exists_of_bind_eq_ok h with ⟨word, -, hRead⟩
      cases hRead
      exact hClosed.boolean depth true
    split at h
    · rcases exists_of_bind_eq_ok h with ⟨word, -, hRead⟩
      cases hRead
      exact hClosed.boolean depth false
    split at h
    · rcases exists_of_bind_eq_ok h with ⟨number, -, hRead⟩
      cases hRead
      exact hClosed.number depth number.value
    split at h
    · rcases exists_of_bind_eq_ok h with ⟨number, -, hRead⟩
      cases hRead
      exact hClosed.number depth number.value
    split at h
    · rcases exists_of_bind_eq_ok h with ⟨text, -, hRead⟩
      cases hRead
      exact hClosed.string depth text.value
    split at h
    · split at h
      · simp at h
      · rcases exists_of_bind_eq_ok h with
          ⟨items, hItems, hRead⟩
        cases hRead
        exact hClosed.array _ _ (readItems hClosed hItems)
    split at h
    · split at h
      · simp at h
      · rcases exists_of_bind_eq_ok h with
          ⟨entries, hEntries, hRead⟩
        cases hRead
        exact hClosed.ofEntries _ _ (readEntries hClosed hEntries)
    · simp at h
termination_by 2 * source.length
decreasing_by
  all_goals omega

/- A closed property holds of items that are read. -/
theorem readItems
    (hClosed : ReadClosed P)
    {depth : Nat}
    {opening : Bool}
    {source : List UInt8}
    {read : Read source.length (List Node)}
    (h : Json.readItems depth opening source = .ok read) :
    ∀ item ∈ read.value, P depth item := by
  rw [Json.readItems] at h
  split at h
  · simp at h
  · rename_i byte rest hSource
    have hRest := length_lt_of_skipBlanks hSource
    dsimp only at h
    split at h
    · cases h
      simp
    split at h
    · rcases exists_of_bind_eq_ok h with ⟨item, hItem, hRead⟩
      rcases exists_of_bind_eq_ok hRead with
        ⟨items, hItems, hRead⟩
      cases hRead
      have hWithin : item.rest.length < rest.length + 1 :=
        item.within
      dsimp only
      rw [List.forall_mem_cons]
      exact ⟨readNode hClosed hItem, readItems hClosed hItems⟩
    split at h
    · split at h
      · simp at h
      · split at h
        · simp at h
        · rcases exists_of_bind_eq_ok h with
            ⟨item, hItem, hRead⟩
          rcases exists_of_bind_eq_ok hRead with
            ⟨items, hItems, hRead⟩
          cases hRead
          have hWithin := item.within
          dsimp only
          rw [List.forall_mem_cons]
          exact
            ⟨readNode hClosed hItem, readItems hClosed hItems⟩
    · simp at h
termination_by 2 * source.length + 1
decreasing_by
  · omega
  · omega
  · simp only [List.length_cons]
    omega
  · omega

/- A closed property holds of the values that are read. -/
theorem readEntries
    (hClosed : ReadClosed P)
    {depth : Nat}
    {opening : Bool}
    {source : List UInt8}
    {read : Read source.length (List (String × Node))}
    (h : Json.readEntries depth opening source = .ok read) :
    ∀ entry ∈ read.value, P depth entry.2 := by
  rw [Json.readEntries] at h
  split at h
  · simp at h
  · rename_i byte rest hSource
    have hRest := length_lt_of_skipBlanks hSource
    dsimp only at h
    split at h
    · cases h
      simp
    split at h
    · split at h
      · rcases exists_of_bind_eq_ok h with ⟨key, -, hRead⟩
        rcases exists_of_bind_eq_ok hRead with
          ⟨value, hValue, hRead⟩
        rcases exists_of_bind_eq_ok hRead with
          ⟨entries, hEntries, hRead⟩
        cases hRead
        have hKey := key.within
        have hWithin := value.within
        dsimp only
        rw [List.forall_mem_cons]
        exact
          ⟨readNode hClosed hValue,
            readEntries hClosed hEntries⟩
      · simp at h
    split at h
    · split at h
      · simp at h
      · rename_i next after hNext
        have hAfter := length_lt_of_skipBlanks hNext
        split at h
        · rcases exists_of_bind_eq_ok h with ⟨key, -, hRead⟩
          rcases exists_of_bind_eq_ok hRead with
            ⟨value, hValue, hRead⟩
          rcases exists_of_bind_eq_ok hRead with
            ⟨entries, hEntries, hRead⟩
          cases hRead
          have hKey := key.within
          have hWithin := value.within
          dsimp only
          rw [List.forall_mem_cons]
          exact
            ⟨readNode hClosed hValue,
              readEntries hClosed hEntries⟩
        · split at h <;> simp at h
    · simp at h
termination_by 2 * source.length + 1
decreasing_by
  all_goals omega

end

/- A closed property holds of the value of a JSON text. -/
theorem parse
    (hClosed : ReadClosed P)
    {source : List UInt8}
    {node : Node}
    (h : Node.parse source = .ok node) :
    P depthLimit node := by
  unfold Node.parse at h
  split at h
  · rename_i value hText
    rw [← Except.ok.inj h]
    unfold readText at hText
    rcases exists_of_bind_eq_ok hText with
      ⟨read, hRead, hRest⟩
    split at hRest
    · rw [← Except.ok.inj hRest]
      exact readNode hClosed hRead
    · simp [throw, throwThe, MonadExceptOf.throw] at hRest
  · simp at h

end ReadClosed

end Json

end DottedRef
