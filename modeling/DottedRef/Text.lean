/-
  This file defines text as a list of characters measured in
  UTF-8 bytes. An offset counts bytes from the start of the
  text and is usable only where one character ends and the
  next begins, so every cut at an offset can fail.

  Key definitions include:
    * `Text.size`
    * `Text.splitAt?`
    * `Text.isOffset`
    * `Text.before?`
    * `Text.after?`
    * `Text.slice?`
    * `Text.floorOffset`
    * `Text.firstIndexOf?`
    * `Text.lastIndexOf?`
    * `Text.split`
-/

namespace DottedRef

namespace Text

------------------------------------------------------------
-- Size and Cuts
------------------------------------------------------------

/- The number of bytes a text occupies in UTF-8. -/
def size : List Char → Nat
  | [] => 0
  | c :: text => c.utf8Size + size text

/-
  Cut a text at a byte offset. There is no cut past the end
  or inside a character.
-/
def splitAt?
    (offset : Nat) :
    List Char → Option (List Char × List Char)
  | [] => if offset = 0 then some ([], []) else none
  | c :: text =>
      if offset = 0 then
        some ([], c :: text)
      else if c.utf8Size ≤ offset then
        (splitAt? (offset - c.utf8Size) text).map
          fun cut => (c :: cut.1, cut.2)
      else
        none

/- Whether a text can be cut at an offset. -/
def isOffset
    (offset : Nat)
    (text : List Char) : Bool :=
  (splitAt? offset text).isSome

/- The part of a text before an offset. -/
def before?
    (offset : Nat)
    (text : List Char) : Option (List Char) :=
  (splitAt? offset text).map Prod.fst

/- The part of a text from an offset on. -/
def after?
    (offset : Nat)
    (text : List Char) : Option (List Char) :=
  (splitAt? offset text).map Prod.snd

/- The part of a text between two offsets. -/
def slice?
    (first last : Nat)
    (text : List Char) : Option (List Char) :=
  if first ≤ last then
    (after? first text).bind (before? (last - first))
  else
    none

/-
  The greatest usable offset that is not past the given one.
-/
def floorOffset
    (offset : Nat) :
    List Char → Nat
  | [] => 0
  | c :: text =>
      if c.utf8Size ≤ offset then
        c.utf8Size + floorOffset (offset - c.utf8Size) text
      else
        0

------------------------------------------------------------
-- Search
------------------------------------------------------------

/-
  The offset of the first place where a non-empty pattern
  stands.
-/
def firstIndexOf?
    (pattern : List Char) :
    List Char → Option Nat
  | [] => none
  | c :: text =>
      if pattern.isPrefixOf (c :: text) then
        some 0
      else
        (firstIndexOf? pattern text).map (c.utf8Size + ·)

/-
  The offset of the last place where a non-empty pattern
  stands.
-/
def lastIndexOf?
    (pattern : List Char) :
    List Char → Option Nat
  | [] => none
  | c :: text =>
      match lastIndexOf? pattern text with
      | some index => some (c.utf8Size + index)
      | none =>
          if pattern.isPrefixOf (c :: text) then
            some 0
          else
            none

------------------------------------------------------------
-- Separators
------------------------------------------------------------

/-
  The parts of a text between separators. There is always one
  part more than there are separators, and parts may be empty.
-/
def split
    (separator : Char) :
    List Char → List (List Char)
  | [] => [[]]
  | c :: text =>
      if c = separator then
        [] :: split separator text
      else
        match split separator text with
        | [] => [[c]]
        | part :: parts => (c :: part) :: parts

------------------------------------------------------------
-- Size Lemmas
------------------------------------------------------------

/- Sizes add up over concatenation. -/
theorem size_append
    (first last : List Char) :
    size (first ++ last) = size first + size last := by
  induction first with
  | nil => simp [size]
  | cons c first ih =>
      simp only [List.cons_append, size, ih]
      omega

/- A pattern's place leaves room for the pattern. -/
theorem firstIndexOf?_room
    {pattern text : List Char}
    {index : Nat}
    (h : firstIndexOf? pattern text = some index) :
    index + size pattern ≤ size text := by
  induction text generalizing index with
  | nil => simp [firstIndexOf?] at h
  | cons c text ih =>
      rw [firstIndexOf?] at h
      split at h
      · rename_i hPattern
        obtain ⟨rest, hRest⟩ := List.isPrefixOf_iff_prefix.mp hPattern
        have hSize := size_append pattern rest
        rw [hRest] at hSize
        simp only [Option.some.injEq] at h
        omega
      · obtain ⟨inner, hInner, rfl⟩ := Option.map_eq_some_iff.mp h
        have hRoom := ih hInner
        simp only [size]
        omega

/- The part after a cut is what the offset leaves over. -/
theorem size_after?
    {offset : Nat}
    {text rest : List Char}
    (h : after? offset text = some rest) :
    offset + size rest = size text := by
  unfold after? at h
  obtain ⟨cut, hCut, rfl⟩ := Option.map_eq_some_iff.mp h
  induction text generalizing offset cut with
  | nil =>
      rw [splitAt?] at hCut
      split at hCut
      · obtain rfl := Option.some.inj hCut
        simp_all [size]
      · simp at hCut
  | cons c text ih =>
      rw [splitAt?] at hCut
      split at hCut
      · obtain rfl := Option.some.inj hCut
        simp_all
      · split at hCut
        · obtain ⟨inner, hInner, rfl⟩ := Option.map_eq_some_iff.mp hCut
          have hRoom := ih inner hInner (by simp [hInner])
          simp only [size]
          omega
        · simp at hCut

end Text

end DottedRef
