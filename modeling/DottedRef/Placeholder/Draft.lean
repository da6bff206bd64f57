import DottedRef.Placeholder.Occurrence

/-
  This file defines placeholders that are still being typed: an
  opener and a path that ends at the caret, without a closing
  parenthesis.

  Key definitions include:
    * `Placeholder.Draft`
    * `Placeholder.Draft.rawPath`
    * `Placeholder.Draft.parentPath`
    * `Placeholder.Draft.stem`
    * `Placeholder.draftAt?`
-/

namespace DottedRef

namespace Placeholder

/-
  A placeholder up to the caret. Its last segment is the one
  being typed and may be empty, as may the others.
-/
structure Draft where
  start : Nat
  path : List String
deriving DecidableEq

namespace Draft

/- The path with the token that it starts with. -/
def rawPath
    (draft : Draft) : List String :=
  rootToken :: draft.path

/- The segments that are complete. -/
def parentPath
    (draft : Draft) : List String :=
  draft.path.dropLast

/- The segment that is being typed. -/
def stem
    (draft : Draft) : String :=
  draft.path.getLast?.getD ""

end Draft

/-
  The placeholder being typed at a caret. Only the last opener
  before the caret can have one.
-/
def draftAt?
    (text : String)
    (caret : Nat) : Option Draft := do
  let head ← Text.before? caret text.toList
  let start ← Text.lastIndexOf? opener head
  let typed ← Text.after? (start + openerSize) head
  if typed.any isBracket then
    none
  else
    some ⟨start, (segments typed).map String.ofList⟩

end Placeholder

end DottedRef
