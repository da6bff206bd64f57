import DottedRef.LoadError
import DottedRef.Placeholder.Occurrence
import DottedRef.Resolution
import DottedRef.Text.Position

/-
  This file defines what an editor is told about a placeholder
  that leads nowhere.

  Key definitions include:
    * `Range`
    * `Diagnostic`
    * `Diagnostic.range`
    * `Diagnostic.rangeUtf16`
    * `MissingKey`
    * `Diagnostic.missingKey`
    * `Diagnostic.ofLookup?`
-/

namespace DottedRef

/- A part of a text between two positions. -/
structure Range where
  first : Position
  last : Position
deriving DecidableEq

/- A placeholder that leads nowhere and the key at fault. -/
structure Diagnostic where
  span : Span
  key : String
  message : String
  severity : Severity
deriving DecidableEq

namespace Diagnostic

/- The span in scalar values. -/
def range
    (diagnostic : Diagnostic)
    (text : String) : Range :=
  ⟨.ofOffset text diagnostic.span.offset,
    .ofOffset text
      (diagnostic.span.offset + diagnostic.span.length)⟩

/- The span in UTF-16 code units. -/
def rangeUtf16
    (diagnostic : Diagnostic)
    (text : String) : Range :=
  ⟨.ofOffsetUtf16 text diagnostic.span.offset,
    .ofOffsetUtf16 text
      (diagnostic.span.offset + diagnostic.span.length)⟩

end Diagnostic

------------------------------------------------------------
-- Reports of Missing Keys
------------------------------------------------------------

/- A key that does not exist, with the text that names it. -/
structure MissingKey where
  key : String
  sourceName : String
  sourceText : String
  span : Span
deriving DecidableEq

namespace MissingKey

/- The wording for a missing key. -/
def message
    (missing : MissingKey) : String :=
  "key \"" ++ missing.key ++ "\" does not exist"

/- The report of a missing key. -/
def report
    (missing : MissingKey) : Report :=
  ⟨"placeholder::key_not_found",
    some "Add the key under `placeholder.data` or fix the placeholder path.",
    some .error,
    [⟨"this placeholder does not resolve", missing.span⟩]⟩

end MissingKey

/- The missing key of a diagnostic in a named text. -/
def Diagnostic.missingKey
    (diagnostic : Diagnostic)
    (name text : String) : MissingKey :=
  ⟨diagnostic.key, name, text, diagnostic.span⟩

------------------------------------------------------------
-- Lookups
------------------------------------------------------------

/- The part of a text that a placeholder takes up. -/
def Placeholder.Occurrence.span
    (occurrence : Occurrence) : Span :=
  ⟨occurrence.start, occurrence.finish - occurrence.start⟩

/- A placeholder and what its path leads to. -/
structure Lookup where
  occurrence : Placeholder.Occurrence
  resolution : Resolution

/- The diagnostic of a placeholder whose path breaks. -/
def Diagnostic.ofLookup?
    (lookup : Lookup) : Option Diagnostic :=
  match lookup.resolution with
  | .resolved _ => none
  | .broken _ segment =>
      some ⟨lookup.occurrence.span, segment,
        missingKeyMessage segment, .error⟩

end DottedRef
