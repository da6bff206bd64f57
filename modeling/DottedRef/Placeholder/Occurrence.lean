import DottedRef.Text

/-
  This file defines placeholders as they stand in a text, and
  finds all of them. A placeholder is `$(mcp.`, one or more
  segments separated by points, and `)`. A segment is any
  non-empty run of characters other than `$`, `(`, `)` and
  the point.

  Key definitions include:
    * `Placeholder.opener`
    * `Placeholder.isBracket`
    * `Placeholder.Occurrence`
    * `Placeholder.readBody?`
    * `Placeholder.attempt?`
    * `Placeholder.scan`
    * `Placeholder.occurrenceAt?`
-/

namespace DottedRef

namespace Placeholder

------------------------------------------------------------
-- Grammar
------------------------------------------------------------

/- The token that every written path starts with. -/
def rootToken : String :=
  "mcp"

/- The characters that open a placeholder. -/
def opener : List Char :=
  ['$', '(', 'm', 'c', 'p', '.']

/- The number of bytes of an opener. -/
def openerSize : Nat :=
  6

/- The characters that neither a segment nor a point is. -/
def isBracket
    (c : Char) : Bool :=
  c = '$' || c = '(' || c = ')'

/- The segments of a body, which may be empty. -/
def segments
    (body : List Char) : List (List Char) :=
  Text.split '.' body

------------------------------------------------------------
-- Occurrences
------------------------------------------------------------

/-
  A placeholder in a text: where it starts, where the text
  after it starts, and its segments.
-/
structure Occurrence where
  start : Nat
  finish : Nat
  path : List String
deriving DecidableEq

namespace Occurrence

/- The path with the token that it starts with. -/
def rawPath
    (occurrence : Occurrence) : List String :=
  rootToken :: occurrence.path

/-
  Whether a placeholder holds an offset or ends at it.
-/
def touches
    (occurrence : Occurrence)
    (offset : Nat) : Bool :=
  occurrence.start ≤ offset && offset ≤ occurrence.finish

end Occurrence

------------------------------------------------------------
-- Bodies
------------------------------------------------------------

/-
  Read a body from an offset on, up to the parenthesis that
  closes it, with the segments that are complete and the
  characters of the next one. There is no body if another
  bracket comes first or a segment is empty.
-/
def readBody?
    (start offset : Nat)
    (path : List String)
    (segment : List Char) :
    List Char → Option Occurrence
  | [] => none
  | c :: text =>
      if c = ')' then
        if segment = [] then
          none
        else
          some ⟨start, offset + c.utf8Size,
            path ++ [String.ofList segment]⟩
      else if c = '.' then
        if segment = [] then
          none
        else
          readBody? start (offset + c.utf8Size)
            (path ++ [String.ofList segment]) [] text
      else if isBracket c then
        none
      else
        readBody? start (offset + c.utf8Size) path
          (segment ++ [c]) text

/- A body that is read ends past the offset it starts at. -/
theorem readBody?_finish
    {start offset : Nat}
    {path : List String}
    {segment text : List Char}
    {occurrence : Occurrence}
    (h : readBody? start offset path segment text =
      some occurrence) :
    offset < occurrence.finish := by
  induction text generalizing offset path segment with
  | nil => simp [readBody?] at h
  | cons c text ih =>
      have hPos := c.utf8Size_pos
      rw [readBody?] at h
      split at h
      · split at h
        · simp at h
        · simp only [Option.some.injEq] at h
          subst h
          simp only
          omega
      · split at h
        · split at h
          · simp at h
          · have hNext := ih h
            omega
        · split at h
          · simp at h
          · have hNext := ih h
            omega

------------------------------------------------------------
-- Scan
------------------------------------------------------------

/- What the next opener in a text leads to. -/
inductive Attempt where
  | finished
  | missed (start : Nat)
  | found (occurrence : Occurrence)
deriving DecidableEq

/-
  Look for the next opener from an offset on and read the body
  after it. The result is missing only if the text cannot be
  cut where it is read.
-/
def attempt?
    (text : List Char)
    (position : Nat) : Option Attempt :=
  match Text.after? position text with
  | none => none
  | some rest =>
      match Text.firstIndexOf? opener rest with
      | none => some .finished
      | some index =>
          match
            Text.after? (position + index + openerSize) text
          with
          | none => none
          | some rest =>
              match
                readBody? (position + index)
                  (position + index + openerSize) [] [] rest
              with
              | none => some (.missed (position + index))
              | some occurrence => some (.found occurrence)

/- An opener that is found lies within the text. -/
theorem room_of_attempt?
    {text rest : List Char}
    {position index : Nat}
    (hRest : Text.after? position text = some rest)
    (hIndex : Text.firstIndexOf? opener rest = some index) :
    position + index < Text.size text := by
  have hRoom := Text.firstIndexOf?_room hIndex
  have hSize := Text.size_after? hRest
  have hOpener : Text.size opener = 6 := by decide
  omega

/- A missed opener lies from the offset on in the text. -/
theorem missed_of_attempt?
    {text : List Char}
    {position start : Nat}
    (h : attempt? text position = some (.missed start)) :
    position ≤ start ∧ start < Text.size text := by
  unfold attempt? at h
  split at h
  · simp at h
  · rename_i rest hRest
    split at h
    · simp at h
    · rename_i index hIndex
      have hRoom := room_of_attempt? hRest hIndex
      split at h
      · simp at h
      · split at h
        · simp only [Option.some.injEq, Attempt.missed.injEq] at h
          omega
        · simp at h

/- A placeholder that is found ends past the offset. -/
theorem found_of_attempt?
    {text : List Char}
    {position : Nat}
    {occurrence : Occurrence}
    (h : attempt? text position = some (.found occurrence)) :
    position < occurrence.finish ∧ position < Text.size text := by
  unfold attempt? at h
  split at h
  · simp at h
  · rename_i rest hRest
    split at h
    · simp at h
    · rename_i index hIndex
      have hRoom := room_of_attempt? hRest hIndex
      split at h
      · simp at h
      · split at h
        · simp at h
        · rename_i hBody
          have hFinish := readBody?_finish hBody
          simp only [Option.some.injEq, Attempt.found.injEq] at h
          subst h
          omega

/-
  The placeholders from an offset on. The search goes on after
  a placeholder that is found, and right after the first
  character of an opener that leads to none.
-/
def scanFrom
    (text : List Char)
    (position : Nat) : List Occurrence :=
  match h : attempt? text position with
  | none => []
  | some .finished => []
  | some (.missed start) => scanFrom text (start + 1)
  | some (.found occurrence) =>
      occurrence :: scanFrom text occurrence.finish
termination_by Text.size text - position
decreasing_by
  · have hMissed := missed_of_attempt? h
    omega
  · have hFound := found_of_attempt? h
    omega

/- The placeholders of a text, in order. -/
def scan
    (text : String) : List Occurrence :=
  scanFrom text.toList 0

/-
  The first placeholder that holds an offset or ends at it.
  No placeholder that starts past the offset is looked at.
-/
def occurrenceAt?
    (text : String)
    (offset : Nat) : Option Occurrence :=
  if Text.isOffset offset text.toList then
    ((scan text).takeWhile (·.start ≤ offset)).find?
      (·.touches offset)
  else
    none

end Placeholder

end DottedRef
