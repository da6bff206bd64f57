import DottedRef.Text

/-
  This file defines places in a file tree as paths name them,
  read without looking at the tree: `.` stays, `..` goes up,
  and a name goes down.

  Key definitions include:
    * `Location`
    * `Location.parent`
    * `Location.child`
    * `Location.follow`
    * `Location.ofPath`
    * `Location.toPath`
    * `Location.normalizePath`
-/

namespace DottedRef

/-
  A place counted from the root of the tree, or from the
  current directory by climbing first and then descending.
-/
inductive Location where
  | absolute (names : List String)
  | relative (climbs : Nat) (names : List String)
deriving DecidableEq

namespace Location

/-
  One level up. The root is its own parent, and a relative
  place that has no name left to take back climbs.
-/
def parent : Location → Location
  | absolute names => absolute names.dropLast
  | relative climbs [] => relative (climbs + 1) []
  | relative climbs (name :: names) =>
      relative climbs (name :: names).dropLast

/- One level down. -/
def child
    (name : String) :
    Location → Location
  | absolute names => absolute (names ++ [name])
  | relative climbs names => relative climbs (names ++ [name])

/- Follow one part of a path. -/
def follow
    (location : Location)
    (part : String) : Location :=
  if part = "" ∨ part = "." then
    location
  else if part = ".." then
    location.parent
  else
    location.child part

/- The parts of a path between slashes. -/
def parts
    (path : String) : List String :=
  (Text.split '/' path.toList).map String.ofList

/- Whether a path starts at the root. -/
def isRooted
    (path : String) : Bool :=
  path.toList.head? == some '/'

/- The place that a path names. -/
def ofPath
    (path : String) : Location :=
  (parts path).foldl follow
    (if isRooted path then absolute [] else relative 0 [])

/- The shortest path to a place. -/
def toPath : Location → String
  | absolute names => "/" ++ "/".intercalate names
  | relative climbs names =>
      "/".intercalate (List.replicate climbs ".." ++ names)

/- The shortest path to the place that a path names. -/
def normalizePath
    (path : String) : String :=
  (ofPath path).toPath

end Location

end DottedRef
