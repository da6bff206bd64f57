import DottedRef.Json.Fault

/-
  This file defines what a reader returns, a value with the
  bytes it left, and the readers for blanks, words and digits.

  Key definitions include:
    * `Json.Read`
    * `Json.isBlank`
    * `Json.skipBlanks`
    * `Json.readWord`
    * `Json.digit?`
    * `Json.spanDigits`
-/

namespace DottedRef

namespace Json

/-
  A value and the bytes left unread, fewer than a limit. The
  limit is what makes a reader that calls itself on the rest
  come to an end.
-/
structure Read
    (limit : Nat)
    (α : Type) where
  value : α
  rest : List UInt8
  within : rest.length < limit

/- Less is left after a byte than with it. -/
theorem length_lt_cons
    (byte : UInt8)
    (rest : List UInt8) :
    rest.length < (byte :: rest).length :=
  Nat.lt_succ_self rest.length

------------------------------------------------------------
-- Blanks
------------------------------------------------------------

/- Space, tab, line feed and carriage return. -/
def isBlank
    (byte : UInt8) : Bool :=
  byte = Utf8.ascii ' ' || byte = Utf8.ascii '\t' ||
    byte = Utf8.ascii '\n' || byte = Utf8.ascii '\r'

/- The bytes after any blanks. -/
def skipBlanks
    (source : List UInt8) : List UInt8 :=
  source.dropWhile isBlank

/- Skipping blanks adds no bytes. -/
theorem length_skipBlanks
    (source : List UInt8) :
    (skipBlanks source).length ≤ source.length :=
  (List.dropWhile_sublist isBlank).length_le

/- Less is left after the first byte that is no blank. -/
theorem length_lt_of_skipBlanks
    {source rest : List UInt8}
    {byte : UInt8}
    (h : skipBlanks source = byte :: rest) :
    rest.length < source.length := by
  have hSkip := length_skipBlanks source
  rw [h] at hSkip
  exact Nat.lt_of_lt_of_le (length_lt_cons byte rest) hSkip

------------------------------------------------------------
-- Words
------------------------------------------------------------

/- Read the given bytes and nothing else. -/
def readWord
    (word source : List UInt8) :
    Except Fault (Read (source.length + 1) Unit) :=
  match word, source with
  | [], source =>
      .ok ⟨(), source, Nat.lt_succ_self _⟩
  | _ :: _, [] => .error (.here .endInValue [])
  | expected :: word, byte :: source =>
      if byte = expected then
        match readWord word source with
        | .ok read =>
            .ok ⟨(), read.rest,
              Nat.lt_succ_of_lt read.within⟩
        | .error fault => .error fault
      else
        .error (.here .expectedWord source)

------------------------------------------------------------
-- Digits
------------------------------------------------------------

/- The value of a decimal digit. -/
def digit?
    (byte : UInt8) : Option Nat :=
  if 0x30 ≤ byte.toNat ∧ byte.toNat ≤ 0x39 then
    some (byte.toNat - 0x30)
  else
    none

/- The digits that a text starts with, and what follows. -/
def spanDigits :
    List UInt8 → List Nat × List UInt8
  | [] => ([], [])
  | byte :: source =>
      match digit? byte with
      | some value =>
          (value :: (spanDigits source).1, (spanDigits source).2)
      | none => ([], byte :: source)

/- What follows the digits is no longer than the text. -/
theorem length_spanDigits
    (source : List UInt8) :
    (spanDigits source).2.length ≤ source.length := by
  induction source with
  | nil => simp [spanDigits]
  | cons byte source ih =>
      rw [spanDigits]
      split
      · simp only [List.length_cons]
        omega
      · simp

end Json

end DottedRef
