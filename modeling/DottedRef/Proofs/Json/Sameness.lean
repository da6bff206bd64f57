import DottedRef.Json.Node
import Mathlib.Data.List.Forall2

/-
  This file proves that values which are the same cannot be
  told apart by what lookups read of them: they have the same
  keys in the same order, count as missing together, and have
  the same values under every key.

  Key definitions include:
    * `Json.Node.SameContents`

  Key theorems include:
    * `Json.sameItems_iff`
    * `Json.samePairs_iff`
    * `Json.Node.same_iff`
    * `Json.Node.keys_of_same`
    * `Json.Node.isFalsy_of_same`
    * `Json.Node.get?_of_same`
    * `Json.texts_of_forall₂`
-/

namespace DottedRef

namespace Json

------------------------------------------------------------
-- Items and Pairs
------------------------------------------------------------

/- The relation that is tested on nodes. -/
abbrev Node.IsSame
    (first second : Node) : Prop :=
  first.same second = true

/- Pairs of one key and values that are the same. -/
def IsSamePair
    (first second : String × Node) : Prop :=
  first.1 = second.1 ∧ first.2.IsSame second.2

/- Items are compared one by one, in order. -/
theorem sameItems_iff
    {firsts seconds : List Node} :
    sameItems firsts seconds = true ↔
      List.Forall₂ Node.IsSame firsts seconds := by
  induction firsts generalizing seconds with
  | nil => cases seconds <;> simp [sameItems]
  | cons first firsts ih =>
      cases seconds with
      | nil => simp [sameItems]
      | cons second seconds =>
          rw [sameItems, Bool.and_eq_true, ih,
            List.forall₂_cons]

/- Pairs are compared one by one, in order. -/
theorem samePairs_iff
    {firsts seconds : List (String × Node)} :
    samePairs firsts seconds = true ↔
      List.Forall₂ IsSamePair firsts seconds := by
  induction firsts generalizing seconds with
  | nil => cases seconds <;> simp [samePairs]
  | cons first firsts ih =>
      cases seconds with
      | nil => simp [samePairs]
      | cons second seconds =>
          rw [samePairs, Bool.and_eq_true, Bool.and_eq_true,
            beq_iff_eq, ih, List.forall₂_cons]
          rfl

/- Pairs that are the same have their keys in one order. -/
theorem map_fst_of_forall₂
    {firsts seconds : List (String × Node)}
    (h : List.Forall₂ IsSamePair firsts seconds) :
    firsts.map Prod.fst = seconds.map Prod.fst := by
  induction h with
  | nil => rfl
  | cons hPair _ ih => simp [hPair.1, ih]

/- Pairs that are the same have the same value for a key. -/
theorem lookup_of_forall₂
    {firsts seconds : List (String × Node)}
    (h : List.Forall₂ IsSamePair firsts seconds)
    (key : String) :
    Option.Rel Node.IsSame
      (firsts.lookup key) (seconds.lookup key) := by
  induction h with
  | nil => exact .none
  | @cons first second _ _ hPair _ ih =>
      rw [List.lookup_cons, List.lookup_cons, ← hPair.1]
      by_cases hKey : key = first.1
      · simpa [hKey] using Option.Rel.some hPair.2
      · have hNe : (key == first.1) = false :=
          beq_false_of_ne hKey
        simpa only [hNe] using ih

------------------------------------------------------------
-- Nodes
------------------------------------------------------------

namespace Node

/-
  Two values have the same contents if they are of one kind,
  with equal truth values and texts, numbers that compare
  equal, and items or pairs that are the same in order.
-/
inductive SameContents : Node → Node → Prop
  | null : SameContents .null .null
  | boolean
      (value : Bool) :
      SameContents (.boolean value) (.boolean value)
  | number
      {first second : Number}
      (h : first.same second = true) :
      SameContents (.number first) (.number second)
  | string
      (value : String) :
      SameContents (.string value) (.string value)
  | array
      {firsts seconds : List Node}
      (h : List.Forall₂ IsSame firsts seconds) :
      SameContents (.array firsts) (.array seconds)
  | object
      {firsts seconds : List (String × Node)}
      (h : List.Forall₂ IsSamePair firsts seconds) :
      SameContents (.object firsts) (.object seconds)

/- Values are the same exactly if their contents are. -/
theorem same_iff
    {first second : Node} :
    first.same second = true ↔ SameContents first second := by
  constructor
  · intro h
    cases first <;> cases second <;> simp only [same] at h
    case null.null => exact .null
    case boolean.boolean =>
      obtain rfl := beq_iff_eq.mp h
      exact .boolean _
    case number.number => exact .number h
    case string.string =>
      obtain rfl := beq_iff_eq.mp h
      exact .string _
    case array.array => exact .array (sameItems_iff.mp h)
    case object.object => exact .object (samePairs_iff.mp h)
    all_goals exact absurd h Bool.false_ne_true
  · intro h
    cases h with
    | null => rfl
    | boolean value => simp [same]
    | number h => rw [same, h]
    | string value => simp [same]
    | array h => rw [same, sameItems_iff.mpr h]
    | object h => rw [same, samePairs_iff.mpr h]

section Readings

variable {first second : Node}
variable (hSame : first.same second = true)

include hSame

/- Values that are the same have one list of keys. -/
theorem keys_of_same :
    first.keys = second.keys := by
  cases same_iff.mp hSame with
  | object h => exact map_fst_of_forall₂ h
  | _ => rfl

/- Values that are the same count as missing together. -/
theorem isFalsy_of_same :
    first.isFalsy = second.isFalsy := by
  cases same_iff.mp hSame <;> rfl

/- Strings that are the same have one text. -/
theorem text?_of_same :
    first.text? = second.text? := by
  cases same_iff.mp hSame <;> rfl

/- Values that are the same have the same value for a key. -/
theorem get?_of_same
    (key : String) :
    Option.Rel IsSame (first.get? key) (second.get? key) := by
  cases same_iff.mp hSame with
  | object h => exact lookup_of_forall₂ h key
  | _ => exact .none

end Readings

end Node

/- Items that are the same hold the same texts. -/
theorem texts_of_forall₂
    {firsts seconds : List Node}
    (h : List.Forall₂ Node.IsSame firsts seconds) :
    firsts.filterMap (·.text?) =
      seconds.filterMap (·.text?) := by
  induction h with
  | nil => rfl
  | cons hItem _ ih =>
      rw [List.filterMap_cons, List.filterMap_cons, ih,
        Node.text?_of_same hItem]

end Json

end DottedRef
