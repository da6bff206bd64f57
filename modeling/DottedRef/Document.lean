import DottedRef.Json.Node

/-
  This file defines the configuration document: the data that
  placeholders refer to and the names of the texts they are
  looked for in.

  Key definitions include:
    * `Document`
    * `Document.same`
    * `Document.data`
    * `Document.suffixes`
    * `Document.appliesTo`
-/

namespace DottedRef

/- A configuration document. -/
structure Document where
  root : Json.Node

namespace Document

/- Documents are the same if their trees are. -/
def same
    (first second : Document) : Bool :=
  first.root.same second.root

/- A member of the `placeholder` object. -/
def setting?
    (document : Document)
    (key : String) : Option Json.Node :=
  (document.root.get? "placeholder").bind (·.get? key)

/-
  The tree that paths are looked up in. A document without one
  has a null tree, in which every lookup breaks.
-/
def data
    (document : Document) : Json.Node :=
  (document.setting? "data").getD .null

/-
  The endings of the names of texts, in order. Entries that
  are no strings are passed over.
-/
def suffixes
    (document : Document) : List String :=
  match document.setting? "suffixes" with
  | some (.array items) => items.filterMap (·.text?)
  | _ => []

/- Whether a text with a name is looked at. -/
def appliesTo
    (document : Document)
    (name : String) : Bool :=
  document.suffixes.any fun suffix =>
    suffix.toList.isSuffixOf name.toList

end Document

end DottedRef
