import DottedRef.Proofs.Json.Reading

/-
  This file proves that no object of a tree that is read has a
  key twice, so that the value of a key is that of the one
  pair with the key. Of entries with one key the first has the
  place and the last the value.

  Key definitions include:
    * `Json.Node.KeysUnique`

  Key theorems include:
    * `Json.Node.KeysUnique.ofEntries`
    * `Json.get?_ofEntries`
    * `Json.keys_ofEntries`
    * `Json.keysUnique_readClosed`
    * `Json.Node.keysUnique_of_parse`
    * `Json.Node.KeysUnique.get?_of_mem`
-/

namespace DottedRef

namespace Json

------------------------------------------------------------
-- Unique Keys
------------------------------------------------------------

/- In no object within a value does a key come twice. -/
inductive Node.KeysUnique : Node → Prop
  | null : KeysUnique .null
  | boolean
      (value : Bool) :
      KeysUnique (.boolean value)
  | number
      (value : Number) :
      KeysUnique (.number value)
  | string
      (value : String) :
      KeysUnique (.string value)
  | array
      {items : List Node}
      (hItems : ∀ item ∈ items, KeysUnique item) :
      KeysUnique (.array items)
  | object
      {pairs : List (String × Node)}
      (hKeys : (pairs.map Prod.fst).Nodup)
      (hValues : ∀ pair ∈ pairs, KeysUnique pair.2) :
      KeysUnique (.object pairs)

/- Of pairs with different keys, each is found by its key. -/
theorem lookup_of_mem
    {pairs : List (String × Node)}
    {key : String}
    {value : Node}
    (hKeys : (pairs.map Prod.fst).Nodup)
    (hMem : (key, value) ∈ pairs) :
    pairs.lookup key = some value := by
  induction pairs with
  | nil => simp at hMem
  | cons pair pairs ih =>
      rw [List.map_cons, List.nodup_cons] at hKeys
      rcases hKeys with ⟨hFirst, hRest⟩
      rcases List.mem_cons.mp hMem with rfl | hMem
      · rw [List.lookup_cons_self]
      · have hNe : key ≠ pair.1 := by
          intro hEq
          apply hFirst
          rw [← hEq]
          exact List.mem_map_of_mem hMem
        rw [List.lookup_cons, beq_false_of_ne hNe]
        exact ih hRest hMem

/- A pair that is found by its key is there. -/
theorem mem_of_lookup
    {pairs : List (String × Node)}
    {key : String}
    {value : Node}
    (h : pairs.lookup key = some value) :
    (key, value) ∈ pairs := by
  rcases List.lookup_eq_some_iff.mp h with
    ⟨before, after, hPairs, -⟩
  rw [hPairs]
  exact List.mem_append_right _ List.mem_cons_self

namespace Node.KeysUnique

/- The value of each pair of an object is the key's. -/
theorem get?_of_mem
    {pairs : List (String × Node)}
    {key : String}
    {value : Node}
    (h : KeysUnique (.object pairs))
    (hMem : (key, value) ∈ pairs) :
    (Node.object pairs).get? key = some value := by
  cases h with
  | object hKeys _ => exact lookup_of_mem hKeys hMem

/- What a key has for a value has unique keys as well. -/
theorem of_get?
    {node child : Node}
    {key : String}
    (h : node.KeysUnique)
    (hChild : node.get? key = some child) :
    child.KeysUnique := by
  cases h with
  | object _ hValues =>
      exact hValues (key, child) (mem_of_lookup hChild)
  | _ => simp [Node.get?] at hChild

end Node.KeysUnique

------------------------------------------------------------
-- Objects
------------------------------------------------------------

/- Setting a key brings in no other pair. -/
theorem mem_put
    {key : String}
    {value : Node}
    {pairs : List (String × Node)}
    {pair : String × Node}
    (h : pair ∈ put key value pairs) :
    pair = (key, value) ∨ pair ∈ pairs := by
  induction pairs with
  | nil =>
      rw [put, List.mem_singleton] at h
      exact Or.inl h
  | cons first pairs ih =>
      rw [put] at h
      split at h
      · rename_i hKey
        rw [hKey] at h
        rcases List.mem_cons.mp h with hNew | hMem
        · exact Or.inl hNew
        · exact Or.inr (List.mem_cons_of_mem _ hMem)
      · rcases List.mem_cons.mp h with rfl | hMem
        · exact Or.inr List.mem_cons_self
        · rcases ih hMem with hNew | hOld
          · exact Or.inl hNew
          · exact Or.inr (List.mem_cons_of_mem _ hOld)

/- Setting a key gives it the value and leaves other keys. -/
theorem lookup_put
    (key other : String)
    (value : Node)
    (pairs : List (String × Node)) :
    (put key value pairs).lookup other =
      if other = key then some value else pairs.lookup other := by
  induction pairs with
  | nil =>
      rw [put, List.lookup_cons]
      by_cases hOther : other = key
      · rw [beq_iff_eq.mpr hOther, if_pos hOther]
      · rw [beq_false_of_ne hOther, if_neg hOther]
  | cons pair pairs ih =>
      rw [put]
      split
      · rename_i hKey
        rw [List.lookup_cons, List.lookup_cons, hKey]
        by_cases hOther : other = key
        · rw [beq_iff_eq.mpr hOther, if_pos hOther]
        · rw [beq_false_of_ne hOther, if_neg hOther]
      · rename_i hKey
        rw [List.lookup_cons, ih, List.lookup_cons]
        by_cases hOther : other = key
        · subst hOther
          rw [beq_false_of_ne (Ne.symm hKey), if_pos rfl]
        · rw [if_neg hOther, if_neg hOther]

/- A key that is set keeps its place or is put last. -/
theorem keys_put
    (key : String)
    (value : Node)
    (pairs : List (String × Node)) :
    (put key value pairs).map Prod.fst =
      if key ∈ pairs.map Prod.fst then
        pairs.map Prod.fst
      else
        pairs.map Prod.fst ++ [key] := by
  induction pairs with
  | nil => rfl
  | cons pair pairs ih =>
      rw [put]
      split
      · rename_i hKey
        simp [hKey]
      · rename_i hKey
        have hMem :
            key ∈ (pair :: pairs).map Prod.fst ↔
              key ∈ pairs.map Prod.fst := by
          rw [List.map_cons, List.mem_cons]
          exact or_iff_right (Ne.symm hKey)
        rw [List.map_cons, ih]
        simp only [hMem]
        split <;> rfl

/- Setting a key leaves no key twice. -/
theorem nodup_put
    {key : String}
    {value : Node}
    {pairs : List (String × Node)}
    (h : (pairs.map Prod.fst).Nodup) :
    ((put key value pairs).map Prod.fst).Nodup := by
  rw [keys_put]
  split
  · exact h
  · rename_i hMem
    rw [List.nodup_append]
    refine ⟨h, by simp, ?_⟩
    intro first hFirst last hLast hSame
    rw [hSame, List.mem_singleton.mp hLast] at hFirst
    exact hMem hFirst

/- A key that is not there yet is put last. -/
theorem put_of_not_mem
    {key : String}
    {pairs : List (String × Node)}
    (value : Node)
    (h : key ∉ pairs.map Prod.fst) :
    put key value pairs = pairs ++ [(key, value)] := by
  induction pairs with
  | nil => rfl
  | cons pair pairs ih =>
      rw [List.map_cons, List.mem_cons, not_or] at h
      rw [put, if_neg (Ne.symm h.1), ih h.2]
      rfl

/- Entries with different keys are the pairs of the object. -/
theorem ofEntries_of_nodup
    {entries : List (String × Node)}
    (h : (entries.map Prod.fst).Nodup) :
    Node.ofEntries entries = .object entries := by
  have hFold :
      ∀ pairs : List (String × Node),
        ((pairs ++ entries).map Prod.fst).Nodup →
          entries.foldl
              (fun pairs entry => put entry.1 entry.2 pairs)
              pairs =
            pairs ++ entries := by
    clear h
    induction entries with
    | nil => simp
    | cons entry entries ih =>
        intro pairs hNodup
        have hSplit :
            pairs ++ entry :: entries =
              pairs ++ [entry] ++ entries := by
          simp
        have hNew : entry.1 ∉ pairs.map Prod.fst := by
          intro hMem
          rw [List.map_append, List.nodup_append] at hNodup
          exact
            hNodup.2.2 _ hMem _
              (List.mem_map_of_mem List.mem_cons_self) rfl
        rw [hSplit] at hNodup ⊢
        rw [List.foldl_cons, put_of_not_mem _ hNew]
        exact ih _ hNodup
  have hAll := hFold [] h
  exact congrArg Node.object hAll

/-
  An object made of entries has no key twice, and no pairs but
  the entries.
-/
theorem exists_ofEntries
    (entries : List (String × Node)) :
    ∃ pairs,
      Node.ofEntries entries = .object pairs ∧
        (pairs.map Prod.fst).Nodup ∧
        ∀ pair ∈ pairs, pair ∈ entries := by
  have hFold :
      ∀ pairs : List (String × Node),
        (pairs.map Prod.fst).Nodup →
          let last :=
            entries.foldl
              (fun pairs entry => put entry.1 entry.2 pairs)
              pairs
          (last.map Prod.fst).Nodup ∧
            ∀ pair ∈ last,
              pair ∈ pairs ∨ pair ∈ entries := by
    induction entries with
    | nil =>
        intro pairs hPairs
        exact ⟨hPairs, fun pair hMem => .inl hMem⟩
    | cons entry entries ih =>
        intro pairs hPairs
        rcases ih (put entry.1 entry.2 pairs)
            (nodup_put hPairs) with
          ⟨hNodup, hMem⟩
        refine ⟨hNodup, ?_⟩
        intro pair hLast
        rcases hMem pair hLast with hPut | hRest
        · rcases mem_put hPut with hNew | hOld
          · exact .inr (hNew ▸ List.mem_cons_self)
          · exact .inl hOld
        · exact .inr (List.mem_cons_of_mem _ hRest)
  rcases hFold [] (by simp) with ⟨hNodup, hMem⟩
  refine ⟨_, rfl, hNodup, ?_⟩
  intro pair hLast
  rcases hMem pair hLast with hNil | hEntry
  · simp at hNil
  · exact hEntry

/- An object made of entries has unique keys if they have. -/
theorem Node.KeysUnique.ofEntries
    {entries : List (String × Node)}
    (h : ∀ entry ∈ entries, entry.2.KeysUnique) :
    (Node.ofEntries entries).KeysUnique := by
  rcases exists_ofEntries entries with
    ⟨pairs, hPairs, hKeys, hMem⟩
  rw [hPairs]
  exact .object hKeys fun pair hPair => h pair (hMem pair hPair)

/- An entry that comes last has the value of its key. -/
theorem get?_ofEntries
    (entries : List (String × Node))
    (key : String) :
    (Node.ofEntries entries).get? key =
      entries.reverse.lookup key := by
  have hFold :
      ∀ pairs : List (String × Node),
        (entries.foldl
            (fun pairs entry => put entry.1 entry.2 pairs)
            pairs).lookup key =
          (entries.reverse.lookup key).or (pairs.lookup key) := by
    induction entries with
    | nil => simp
    | cons entry entries ih =>
        intro pairs
        rw [List.foldl_cons, ih, lookup_put, List.reverse_cons,
          List.lookup_append, List.lookup_cons, List.lookup_nil,
          Option.or_assoc]
        congr 1
        by_cases hKey : key = entry.1
        · rw [beq_iff_eq.mpr hKey, if_pos hKey]
          rfl
        · rw [beq_false_of_ne hKey, if_neg hKey]
          rfl
  have hAll := hFold []
  rw [List.lookup_nil, Option.or_none] at hAll
  exact hAll

/- The entry that comes first has the place of its key. -/
theorem keys_ofEntries
    (entries : List (String × Node)) :
    (Node.ofEntries entries).keys =
      (entries.map Prod.fst).eraseDups := by
  have hFold :
      ∀ pairs : List (String × Node),
        (entries.foldl
            (fun pairs entry => put entry.1 entry.2 pairs)
            pairs).map Prod.fst =
          pairs.map Prod.fst ++
            ((entries.map Prod.fst).removeAll
              (pairs.map Prod.fst)).eraseDups := by
    induction entries with
    | nil => simp
    | cons entry entries ih =>
        intro pairs
        rw [List.foldl_cons, ih, keys_put, List.map_cons,
          List.cons_removeAll]
        by_cases hMem : entry.1 ∈ pairs.map Prod.fst
        · rw [if_pos hMem, if_neg (by simpa using hMem)]
        · have hRemove :
              (entries.map Prod.fst).removeAll
                  (pairs.map Prod.fst ++ [entry.1]) =
                ((entries.map Prod.fst).removeAll
                  (pairs.map Prod.fst)).filter
                    fun key => !key == entry.1 := by
            unfold List.removeAll
            rw [List.filter_filter]
            apply List.filter_congr
            intro key _
            rw [Bool.eq_iff_iff]
            simp [and_comm]
          rw [if_neg hMem, if_pos (by simpa using hMem),
            List.eraseDups_cons, List.append_assoc, hRemove]
          rfl
  have hAll := hFold []
  rw [List.map_nil, List.removeAll_nil, List.nil_append] at hAll
  exact hAll

------------------------------------------------------------
-- Reading
------------------------------------------------------------

/- Unique keys are kept by the reader of values. -/
theorem keysUnique_readClosed :
    ReadClosed (fun _ node => node.KeysUnique) where
  null _ := .null
  boolean _ value := .boolean value
  number _ value := .number value
  string _ value := .string value
  array _ _ hItems := .array hItems
  ofEntries _ _ hEntries := .ofEntries hEntries

/- The value of a JSON text has unique keys. -/
theorem Node.keysUnique_of_parse
    {source : List UInt8}
    {node : Node}
    (h : Node.parse source = .ok node) :
    node.KeysUnique :=
  keysUnique_readClosed.parse h

end Json

end DottedRef
