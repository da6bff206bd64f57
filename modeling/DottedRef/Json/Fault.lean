import DottedRef.Decimal
import DottedRef.Utf8

/-
  This file defines what can be wrong with JSON text and where
  it is reported. Places are lines counted from 1 and columns
  that count the bytes read of the line.

  Key definitions include:
    * `Json.Cause`
    * `Json.Cause.message`
    * `Json.Mark`
    * `Json.Mark.after`
    * `Json.Fault`
    * `Json.Fault.here`
    * `Json.Fault.next`
    * `Json.SyntaxError`
    * `Json.SyntaxError.message`
-/

namespace DottedRef

namespace Json

------------------------------------------------------------
-- Causes
------------------------------------------------------------

/- The ways in which text fails to be a JSON value. -/
inductive Cause where
  | endInValue
  | endInList
  | endInObject
  | endInString
  | expectedValue
  | expectedWord
  | expectedColon
  | expectedListEnd
  | expectedObjectEnd
  | keyNotString
  | trailingComma
  | trailingCharacters
  | invalidNumber
  | numberOutOfRange
  | invalidEscape
  | loneSurrogate
  | brokenSurrogatePair
  | controlCharacter
  | invalidCodePoint
  | tooDeep
deriving DecidableEq

/- The wording of a cause. -/
def Cause.message : Cause → String
  | endInValue => "EOF while parsing a value"
  | endInList => "EOF while parsing a list"
  | endInObject => "EOF while parsing an object"
  | endInString => "EOF while parsing a string"
  | expectedValue => "expected value"
  | expectedWord => "expected ident"
  | expectedColon => "expected `:`"
  | expectedListEnd => "expected `,` or `]`"
  | expectedObjectEnd => "expected `,` or `\x7d`"
  | keyNotString => "key must be a string"
  | trailingComma => "trailing comma"
  | trailingCharacters => "trailing characters"
  | invalidNumber => "invalid number"
  | numberOutOfRange => "number out of range"
  | invalidEscape => "invalid escape"
  | loneSurrogate => "lone leading surrogate in hex escape"
  | brokenSurrogatePair => "unexpected end of hex escape"
  | controlCharacter =>
      "control character (\\u0000-\\u001F) found while parsing a string"
  | invalidCodePoint => "invalid unicode code point"
  | tooDeep => "recursion limit exceeded"

------------------------------------------------------------
-- Places
------------------------------------------------------------

/- A line and the number of its bytes that have been read. -/
structure Mark where
  line : Nat
  column : Nat
deriving DecidableEq

namespace Mark

/- The mark after one more byte. -/
def advance
    (mark : Mark)
    (byte : UInt8) : Mark :=
  if byte = Utf8.ascii '\n' then
    ⟨mark.line + 1, 0⟩
  else
    ⟨mark.line, mark.column + 1⟩

/- The mark after a number of bytes. -/
def after
    (bytes : List UInt8) : Mark :=
  bytes.foldl advance ⟨1, 0⟩

end Mark

/-
  A cause, the number of bytes left unread where it is
  reported, and the number of columns to step back from there.
-/
structure Fault where
  cause : Cause
  unread : Nat
  back : Nat

namespace Fault

/- A fault at the bytes that have been read. -/
def here
    (cause : Cause)
    (rest : List UInt8) : Fault :=
  ⟨cause, rest.length, 0⟩

/- A fault at the next byte, or at the end of the text. -/
def next
    (cause : Cause)
    (rest : List UInt8) : Fault :=
  ⟨cause, rest.length - 1, 0⟩

end Fault

------------------------------------------------------------
-- Syntax Errors
------------------------------------------------------------

/- A cause and its place in the text. -/
structure SyntaxError where
  cause : Cause
  line : Nat
  column : Nat
deriving DecidableEq

/- The place of a fault in the text it was found in. -/
def Fault.locate
    (fault : Fault)
    (source : List UInt8) : SyntaxError :=
  let mark := Mark.after (source.take (source.length - fault.unread))
  ⟨fault.cause, mark.line, mark.column - fault.back⟩

/- The wording of a syntax error. -/
def SyntaxError.message
    (error : SyntaxError) : String :=
  error.cause.message ++ " at line " ++ Decimal.text error.line ++
    " column " ++ Decimal.text error.column

end Json

end DottedRef
