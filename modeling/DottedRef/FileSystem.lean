import DottedRef.Location

/-
  This file defines the files that a configuration is read
  from: either files named by exact paths, or a tree of
  directories in which a path is followed part by part.

  Key definitions include:
    * `Contents`
    * `Directory`
    * `Directory.walk?`
    * `Directory.walkMaking?`
    * `FileSystem`
    * `FileSystem.contains`
    * `FileSystem.read`
    * `FileSystem.set`
    * `FileSystem.remove`
    * `FileSystem.makeDirectory`
-/

namespace DottedRef

/- The bytes of a file, or what reading it fails with. -/
inductive Contents where
  | readable (bytes : List UInt8)
  | failing (message : String)
deriving DecidableEq

/- What reading gives. -/
def Contents.read : Contents → Except String (List UInt8)
  | readable bytes => .ok bytes
  | failing message => .error message

/- What reading a file that is not there fails with. -/
def missingFile : String :=
  "no such file"

/-
  Set the value of a key in a list of pairs with different
  keys.
-/
def assign
    [DecidableEq α]
    (key : α)
    (value : β)
    (pairs : List (α × β)) : List (α × β) :=
  (key, value) :: pairs.filter (·.1 ≠ key)

------------------------------------------------------------
-- Directory Trees
------------------------------------------------------------

/- A file or a directory. -/
inductive Entry where
  | file (contents : Contents)
  | directory
deriving DecidableEq

/-
  The tree below the current directory. Entries are found by
  the names that lead to them from there.
-/
structure Directory where
  entries : List (List String × Entry)

namespace Directory

/- What the names lead to. -/
def entry?
    (directory : Directory)
    (names : List String) : Option Entry :=
  if names = [] then
    some .directory
  else
    directory.entries.lookup names

/-
  Follow the parts of a path. Only a directory has a way on,
  and nothing above the current directory is seen.
-/
def walk?
    (directory : Directory)
    (names : List String) :
    List String → Option (List String)
  | [] => some names
  | part :: parts =>
      if directory.entry? names ≠ some .directory then
        none
      else if part = "" ∨ part = "." then
        walk? directory names parts
      else if part = ".." then
        if names = [] then
          none
        else
          walk? directory names.dropLast parts
      else if (directory.entry? (names ++ [part])).isSome then
        walk? directory (names ++ [part]) parts
      else
        none

/- What a path leads to. A path from the root is not seen. -/
def find?
    (directory : Directory)
    (path : String) : Option (List String) :=
  if Location.isRooted path then
    none
  else
    directory.walk? [] (Location.parts path)

/-
  Follow the parts of a path and make the directories that are
  missing.
-/
def walkMaking?
    (directory : Directory)
    (names : List String) :
    List String → Option (Directory × List String)
  | [] =>
      if directory.entry? names = some .directory then
        some (directory, names)
      else
        none
  | part :: parts =>
      if directory.entry? names ≠ some .directory then
        none
      else if part = "" ∨ part = "." then
        walkMaking? directory names parts
      else if part = ".." then
        if names = [] then
          none
        else
          walkMaking? directory names.dropLast parts
      else if (directory.entry? (names ++ [part])).isSome then
        walkMaking? directory (names ++ [part]) parts
      else
        walkMaking?
          ⟨assign (names ++ [part]) .directory directory.entries⟩
          (names ++ [part]) parts

/- Whether a part of a path is a name. -/
def isName
    (part : String) : Bool :=
  part ≠ "" && part ≠ "." && part ≠ ".."

/-
  Set a file and make the directories above it. A directory is
  not replaced.
-/
def set
    (directory : Directory)
    (path : String)
    (contents : Contents) : Directory :=
  let parts := Location.parts path
  let name := parts.getLast?.getD ""
  if Location.isRooted path ∨ ¬ isName name then
    directory
  else
    match directory.walkMaking? [] parts.dropLast with
    | none => directory
    | some (made, names) =>
        if made.entry? (names ++ [name]) = some .directory then
          made
        else
          ⟨assign (names ++ [name]) (.file contents) made.entries⟩

/- Remove what a path leads to and all below it. -/
def remove
    (directory : Directory)
    (path : String) : Directory :=
  match directory.find? path with
  | none => directory
  | some [] => directory
  | some (name :: names) =>
      ⟨directory.entries.filter fun pair =>
        !(name :: names).isPrefixOf pair.1⟩

/- Make a directory and those above it. -/
def make
    (directory : Directory)
    (path : String) : Directory :=
  if Location.isRooted path then
    directory
  else
    match directory.walkMaking? [] (Location.parts path) with
    | none => directory
    | some (made, _) => made

/- The contents of the file that a path leads to. -/
def file?
    (directory : Directory)
    (path : String) : Option Contents :=
  match (directory.find? path).bind directory.entry? with
  | some (.file contents) => some contents
  | _ => none

end Directory

------------------------------------------------------------
-- File Systems
------------------------------------------------------------

/- Files by exact path, or a tree of directories. -/
inductive FileSystem where
  | exact (files : List (String × Contents))
  | tree (directory : Directory)

namespace FileSystem

/- The contents of the file at a path. -/
def file?
    (files : FileSystem)
    (path : String) : Option Contents :=
  match files with
  | exact files => files.lookup path
  | tree directory => directory.file? path

/- Whether there is a file at a path. -/
def contains
    (files : FileSystem)
    (path : String) : Bool :=
  (files.file? path).isSome

/- What reading the file at a path gives. -/
def read
    (files : FileSystem)
    (path : String) : Except String (List UInt8) :=
  match files.file? path with
  | some contents => contents.read
  | none => .error missingFile

/- Set the contents of the file at a path. -/
def set
    (files : FileSystem)
    (path : String)
    (contents : Contents) : FileSystem :=
  match files with
  | exact files => exact (assign path contents files)
  | tree directory => tree (directory.set path contents)

/- Remove the file at a path. -/
def remove
    (files : FileSystem)
    (path : String) : FileSystem :=
  match files with
  | exact files => exact (files.filter (·.1 ≠ path))
  | tree directory => tree (directory.remove path)

/- Make a directory, where there are any. -/
def makeDirectory
    (files : FileSystem)
    (path : String) : FileSystem :=
  match files with
  | exact files => exact files
  | tree directory => tree (directory.make path)

end FileSystem

end DottedRef
