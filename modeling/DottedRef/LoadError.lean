import DottedRef.Document
import DottedRef.Json.Parser
import DottedRef.Resolution
import DottedRef.Text
import DottedRef.Utf8

/-
  This file defines why a configuration could not be loaded
  and how that is reported.

  Key definitions include:
    * `Span`
    * `Severity`
    * `Report`
    * `LoadError`
    * `LoadError.message`
    * `LoadError.report`
    * `LoadError.isMalformed`
    * `byteOffset`
    * `faultSpan`
    * `Document.parse`
-/

namespace DottedRef

------------------------------------------------------------
-- Reports
------------------------------------------------------------

/- A part of a text, in bytes. -/
structure Span where
  offset : Nat
  length : Nat
deriving DecidableEq

/- How much a report matters. -/
inductive Severity where
  | advice
  | warning
  | error
deriving DecidableEq

/- The name of a severity. -/
def Severity.name : Severity → String
  | advice => "advice"
  | warning => "warning"
  | error => "error"

/- A part of a text and what is said about it. -/
structure Label where
  text : String
  span : Span
deriving DecidableEq

/- What a report consists of besides its message. -/
structure Report where
  code : String
  help : Option String
  severity : Option Severity
  labels : List Label
deriving DecidableEq

------------------------------------------------------------
-- Load Errors
------------------------------------------------------------

/-
  A document that is no JSON text, a file that cannot be read,
  or a file that is not there.
-/
inductive LoadError where
  | malformed
      (sourceName : String)
      (sourceText : String)
      (span : Span)
      (reason : String)
  | unreadable (path : String) (reason : String)
  | missing (path : String)
deriving DecidableEq

namespace LoadError

/- The wording of a load error. -/
def message : LoadError → String
  | malformed _ _ _ reason =>
      "Malformed placeholder configuration: " ++ reason
  | unreadable path reason =>
      "Could not read placeholder configuration " ++ path ++
        ": " ++ reason
  | missing path =>
      "Placeholder configuration " ++ path ++ " not found"

/- Whether the contents are at fault. -/
def isMalformed : LoadError → Bool
  | malformed _ _ _ _ => true
  | unreadable _ _ => false
  | missing _ => false

/- The report of a load error. -/
def report : LoadError → Report
  | malformed _ _ span reason =>
      ⟨"config::malformed",
        some "The configuration must be a single JSON document. Fix the syntax and save again.",
        none, [⟨reason, span⟩]⟩
  | unreadable _ _ =>
      ⟨"config::io", none, none, []⟩
  | missing _ =>
      ⟨"config::not_found",
        some "Create the file to enable placeholder resolution.",
        none, []⟩

end LoadError

------------------------------------------------------------
-- The Place of a Syntax Error
------------------------------------------------------------

/-
  The offset at which a line starts, counting lines from 0, or
  none if there are not as many line feeds.
-/
def lineStart?
    (line : Nat)
    (source : List UInt8) : Option Nat :=
  match line, source with
  | 0, _ => some 0
  | _ + 1, [] => none
  | line + 1, byte :: source =>
      (lineStart?
        (if byte = Utf8.ascii '\n' then line else line + 1)
        source).map (1 + ·)

/-
  The offset of a byte from its line and column, both counted
  from 1. Column 0 is the start of the line. The offset is at
  most the size of the source.
-/
def byteOffset
    (source : List UInt8)
    (line column : Nat) : Nat :=
  match lineStart? (line - 1) source with
  | none => source.length
  | some start => min (start + (column - 1)) source.length

/-
  The offset in the decoded text of an offset in the source.
  What comes before it is decoded by itself and measured, and
  the result is moved back to the start of a character.
-/
def decodedOffset
    (source : List UInt8)
    (offset : Nat) : Nat :=
  Text.floorOffset
    (Text.size (Utf8.decodeLossy (source.take offset)))
    (Utf8.decodeLossy source)

/- The size of the character at an offset, or 0 at the end. -/
def sizeAt
    (text : List Char)
    (offset : Nat) : Nat :=
  match Text.after? offset text with
  | some (c :: _) => c.utf8Size
  | _ => 0

/-
  The character of the decoded text that a line and a column
  of the source point at. Line 0 is the start of the source.
-/
def faultSpan
    (source : List UInt8)
    (line column : Nat) : Span :=
  let raw := if line = 0 then 0 else byteOffset source line column
  let offset := decodedOffset source raw
  ⟨offset, sizeAt (Utf8.decodeLossy source) offset⟩

/- The load error for a syntax error in a source. -/
def LoadError.ofSyntaxError
    (name : String)
    (source : List UInt8)
    (error : Json.SyntaxError) : LoadError :=
  .malformed name (String.ofList (Utf8.decodeLossy source))
    (faultSpan source error.line error.column) error.message

/- The document that a source holds. -/
def Document.parse
    (name : String)
    (source : List UInt8) : Except LoadError Document :=
  match Json.Node.parse source with
  | .ok root => .ok ⟨root⟩
  | .error error => .error (.ofSyntaxError name source error)

end DottedRef
