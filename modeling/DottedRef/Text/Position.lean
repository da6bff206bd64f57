import DottedRef.Text

/-
  This file defines line and character positions in a text.
  Lines end at `\n` only, and characters of a line are counted
  either as scalar values or as UTF-16 code units.

  Key definitions include:
    * `Text.startedBefore`
    * `Text.scalarWidth`
    * `Text.utf16Width`
    * `Text.offsetOf?`
    * `Position`
    * `Position.advance`
    * `Position.ofOffset`
    * `Position.ofOffsetUtf16`
    * `Position.offset?`
-/

namespace DottedRef

------------------------------------------------------------
-- Characters Before an Offset
------------------------------------------------------------

namespace Text

/-
  The characters whose first byte lies before an offset. An
  offset inside a character takes the character whole, and one
  past the end takes the whole text.
-/
def startedBefore
    (offset : Nat) :
    List Char → List Char
  | [] => []
  | c :: text =>
      if offset = 0 then
        []
      else
        c :: startedBefore (offset - c.utf8Size) text

/- A scalar value counts as one character. -/
def scalarWidth
    (_ : Char) : Nat :=
  1

/-
  The number of UTF-16 code units of a scalar value: two from
  U+10000 on.
-/
def utf16Width
    (c : Char) : Nat :=
  if c.toNat < 0x10000 then 1 else 2

/-
  The offset of a line and a character in it. A line that the
  text does not have has no offset; a character past the end
  of its line is the line's end.
-/
def offsetOf?
    (line character : Nat)
    (text : List Char) : Option Nat :=
  match line, text with
  | 0, text =>
      some (size ((text.takeWhile (· ≠ '\n')).take character))
  | _ + 1, [] => none
  | line + 1, c :: text =>
      (offsetOf? (if c = '\n' then line else line + 1)
        character text).map (c.utf8Size + ·)

end Text

------------------------------------------------------------
-- Positions
------------------------------------------------------------

/- A line and a character within it, both counted from 0. -/
structure Position where
  line : Nat
  character : Nat
deriving DecidableEq

namespace Position

/- The start of a text. -/
def start : Position :=
  ⟨0, 0⟩

/- The position after one more character. -/
def advance
    (width : Char → Nat)
    (position : Position)
    (c : Char) : Position :=
  if c = '\n' then
    ⟨position.line + 1, 0⟩
  else
    ⟨position.line, position.character + width c⟩

/- The position of an offset, in scalar values. -/
def ofOffset
    (text : String)
    (offset : Nat) : Position :=
  (Text.startedBefore offset text.toList).foldl
    (advance Text.scalarWidth) start

/- The position of an offset, in UTF-16 code units. -/
def ofOffsetUtf16
    (text : String)
    (offset : Nat) : Position :=
  (Text.startedBefore offset text.toList).foldl
    (advance Text.utf16Width) start

/- The offset of a position in scalar values. -/
def offset?
    (text : String)
    (position : Position) : Option Nat :=
  Text.offsetOf? position.line position.character text.toList

end Position

end DottedRef
