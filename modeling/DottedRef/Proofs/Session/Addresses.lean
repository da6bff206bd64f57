import Mathlib
import DottedRef.Proofs.Resolution.Descent
import DottedRef.Proofs.Session.Reachable

/-
  This file proves that in a document that was read every
  value of an object is the one that its key is looked up as,
  so that the keys down to a value make up a path to it.

  Key definitions include:
    * `Json.Node.Within`
    * `Json.Node.Descends`
    * `Json.Node.Addressable`

  Key theorems include:
    * `Json.Node.KeysUnique.of_within`
    * `Json.Node.KeysUnique.leadsTo_iff`
    * `Session.document_addressable`
-/

namespace DottedRef

namespace Json.Node

------------------------------------------------------------
-- Parts of a Tree
------------------------------------------------------------

/- A tree holds itself and all that its items and values hold. -/
inductive Within : Node → Node → Prop
  | here
      {node : Node} :
      Within node node
  | item
      {part item : Node}
      {items : List Node}
      (hItem : item ∈ items)
      (hPart : Within part item) :
      Within part (.array items)
  | value
      {part value : Node}
      {key : String}
      {pairs : List (String × Node)}
      (hPair : (key, value) ∈ pairs)
      (hPart : Within part value) :
      Within part (.object pairs)

/-
  A tree descends to another along the keys of pairs, one pair
  of each object on the way, unless a value on the way is null
  or false.
-/
inductive Descends : Node → List String → Node → Prop
  | here
      {node : Node} :
      Descends node [] node
  | down
      {value target : Node}
      {key : String}
      {keys : List String}
      {pairs : List (String × Node)}
      (hPair : (key, value) ∈ pairs)
      (hCounts : value ≠ .null ∧ value ≠ .boolean false)
      (hKeys : Descends value keys target) :
      Descends (.object pairs) (key :: keys) target

/-
  A tree is addressable if no object in it has a key twice,
  each value of an object is found by its key, and each node
  is found by the keys that lead down to it.
-/
structure Addressable
    (root : Node) : Prop where
  keys :
    ∀ pairs, Within (.object pairs) root →
      (pairs.map Prod.fst).Nodup
  values :
    ∀ pairs key value, Within (.object pairs) root →
      (key, value) ∈ pairs →
        (Node.object pairs).get? key = some value
  paths :
    ∀ path target,
      root.resolve path = .resolved target ↔
        root.Descends path target

------------------------------------------------------------
-- Unique Keys
------------------------------------------------------------

/- What a tree with unique keys holds has unique keys. -/
theorem KeysUnique.of_within
    {part root : Node}
    (h : root.KeysUnique)
    (hPart : part.Within root) :
    part.KeysUnique := by
  induction hPart with
  | here => exact h
  | item hItem _ ih =>
      cases h with
      | array hItems => exact ih (hItems _ hItem)
  | value hPair _ ih =>
      cases h with
      | object _ hValues => exact ih (hValues _ hPair)

/- The keys of an object with unique keys differ. -/
theorem KeysUnique.nodup
    {pairs : List (String × Node)}
    (h : KeysUnique (.object pairs)) :
    (pairs.map Prod.fst).Nodup := by
  cases h with
  | object hKeys _ => exact hKeys

/- Descending pairs comes down to looking up their keys. -/
theorem KeysUnique.leadsTo_iff
    {root target : Node}
    {path : List String}
    (h : root.KeysUnique) :
    root.LeadsTo path target ↔ root.Descends path target := by
  constructor
  · intro hPath
    clear h
    induction hPath with
    | here => exact .here
    | @down node child _ segment _ hChild hCounts _ ih =>
        cases node with
        | object pairs =>
            exact .down (mem_of_lookup hChild) hCounts ih
        | _ => simp [get?] at hChild
  · intro hPath
    induction hPath with
    | here => exact .here
    | @down value _ key _ pairs hPair hCounts _ ih =>
        have hChild := h.get?_of_mem hPair
        exact .down hChild hCounts (ih (h.of_get? hChild))

/- A tree with unique keys is addressable. -/
theorem KeysUnique.addressable
    {root : Node}
    (h : root.KeysUnique) :
    root.Addressable where
  keys _ hObject := (h.of_within hObject).nodup
  values _ _ _ hObject hPair :=
    (h.of_within hObject).get?_of_mem hPair
  paths path target := by
    rw [resolve_eq_resolved_iff]
    exact h.leadsTo_iff

end Json.Node

------------------------------------------------------------
-- Documents
------------------------------------------------------------

/-
  A document that is read from a source is addressable, and so
  is one that is in force in a reachable session.
-/
theorem Session.document_addressable
    {document : Document}
    (hOrigin :
      (∃ name source,
          Document.parse name source = .ok document) ∨
        ∃ session : Session, session.Reachable ∧
          session.engine.current? = some document) :
    document.root.Addressable := by
  have hUnique : document.root.KeysUnique := by
    rcases hOrigin with
      ⟨name, source, hParse⟩ | ⟨session, hReachable, hLoaded⟩
    · exact Document.keysUnique_of_parse hParse
    · exact hReachable.keysUnique hLoaded
  exact hUnique.addressable

/-
  Where a key comes twice, its last value is found, also in an
  object within an array.
-/
theorem Session.document_addressable_of_repeated :
    let source :=
      "\x7b\"a\":1,\"b\":[\x7b\"k\":null,\"k\":\"v\"\x7d]," ++
        "\"a\":\x7b\"z\":true\x7d\x7d"
    let inner := Json.Node.object [("k", .string "v")]
    let outer :=
      Json.Node.object
        [("a", .object [("z", .boolean true)]),
          ("b", .array [inner])]
    Document.parse "p.json" source.toUTF8.toList =
        .ok ⟨outer⟩ ∧
      inner.get? "k" = some (.string "v") ∧
      outer.resolve ["a", "z"] = .resolved (.boolean true) := by
  intro source inner outer
  have hParse :
      Document.parse "p.json" source.toUTF8.toList =
        .ok ⟨outer⟩ := by
    cbv
  have hAddressable : outer.Addressable :=
    document_addressable (.inl ⟨"p.json", _, hParse⟩)
  have hWithin : inner.Within outer := by
    apply Json.Node.Within.value
    · exact List.mem_cons_of_mem _ List.mem_cons_self
    · exact .item List.mem_cons_self .here
  have hDescends :
      outer.Descends ["a", "z"] (.boolean true) :=
    .down List.mem_cons_self (by simp)
      (.down List.mem_cons_self (by simp) .here)
  exact
    ⟨hParse,
      hAddressable.values _ _ _ hWithin List.mem_cons_self,
      (hAddressable.paths _ _).mpr hDescends⟩

end DottedRef
