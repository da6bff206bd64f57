import DottedRef.Json.Node

/-
  This file defines what a path leads to in a tree.

  Key definitions include:
    * `Resolution`
    * `missingKeyMessage`
    * `Resolution.failure?`
    * `Json.Node.resolveFrom`
    * `Json.Node.resolve`
-/

namespace DottedRef

/-
  A path leads to a node, or it breaks at the first segment
  that leads nowhere.
-/
inductive Resolution where
  | resolved (node : Json.Node)
  | broken (index : Nat) (segment : String)

/- What is said of a segment that leads nowhere. -/
def missingKeyMessage
    (segment : String) : String :=
  "key \"" ++ segment ++ "\" does not exist"

namespace Resolution

/- What is said of a path that breaks. -/
def failure? : Resolution → Option String
  | resolved _ => none
  | broken _ segment => some (missingKeyMessage segment)

end Resolution

namespace Json.Node

/-
  Descend from a node along a path whose first segment has the
  given index. Null and false count as missing below the node
  but not as the node itself.
-/
def resolveFrom
    (index : Nat)
    (node : Node) :
    List String → Resolution
  | [] => .resolved node
  | segment :: path =>
      match node.get? segment with
      | none => .broken index segment
      | some child =>
          if child.isFalsy then
            .broken index segment
          else
            resolveFrom (index + 1) child path

/- What a path leads to from a node. -/
def resolve
    (node : Node)
    (path : List String) : Resolution :=
  node.resolveFrom 0 path

end Json.Node

end DottedRef
