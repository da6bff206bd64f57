import DottedRef.Notice
import DottedRef.Resolution

/-
  This file defines what is logged, and at which level.

  Key definitions include:
    * `LogLevel`
    * `LogLevel.admits`
    * `EventKind`
    * `LogEntry`
    * `LogEntry.level`
    * `LogEntry.message`
    * `LogEntry.line`
    * `Resolution.trace`
-/

namespace DottedRef

------------------------------------------------------------
-- Levels
------------------------------------------------------------

/- Log levels, the most severe first. -/
inductive LogLevel where
  | error
  | warn
  | info
  | debug
  | trace
deriving DecidableEq

namespace LogLevel

/- The place of a level in order of severity. -/
def rank : LogLevel → Nat
  | error => 1
  | warn => 2
  | info => 3
  | debug => 4
  | trace => 5

/- The name of a level. -/
def name : LogLevel → String
  | error => "ERROR"
  | warn => "WARN"
  | info => "INFO"
  | debug => "DEBUG"
  | trace => "TRACE"

/- Whether entries at a level are kept. No limit keeps none. -/
def admits
    (limit : Option LogLevel)
    (level : LogLevel) : Bool :=
  match limit with
  | none => false
  | some limit => level.rank ≤ limit.rank

end LogLevel

/- The level at which a notification is logged. -/
def NoticeLevel.logLevel : NoticeLevel → LogLevel
  | info => .info
  | warning => .warn
  | error => .error

------------------------------------------------------------
-- Entries
------------------------------------------------------------

/- What has happened to a file. -/
inductive EventKind where
  | created
  | changed
  | deleted
deriving DecidableEq

/- The name of an event. -/
def EventKind.name : EventKind → String
  | created => "Created"
  | changed => "Changed"
  | deleted => "Deleted"

/- The occasions for a log entry. -/
inductive LogEntry where
  | reloadStarted (generation : UInt64)
  | supersededBeforeParsing (generation : UInt64)
  | supersededBeforeClearing (generation : UInt64)
  | loaded
  | rejected (error : LoadError)
  | cleared
  | lookupBroke (index : Nat) (segment : String)
  | reloadSuperseded (path : String)
  | eventIgnored (kind : EventKind) (path : String)
  | reloadFailed (kind : EventKind) (error : LoadError)
  | notified (notice : Notice)
deriving DecidableEq

namespace LogEntry

/- The level of an entry. -/
def level : LogEntry → LogLevel
  | reloadStarted _ => .debug
  | supersededBeforeParsing _ => .debug
  | supersededBeforeClearing _ => .debug
  | loaded => .info
  | rejected _ => .warn
  | cleared => .info
  | lookupBroke _ _ => .trace
  | reloadSuperseded _ => .debug
  | eventIgnored _ _ => .debug
  | reloadFailed _ _ => .debug
  | notified notice => notice.level.logLevel

/- A character between quotation marks in a log line. -/
def escape
    (c : Char) : List Char :=
  if c = '"' then ['\\', '"']
  else if c = '\\' then ['\\', '\\']
  else if c = '\n' then ['\\', 'n']
  else if c = '\r' then ['\\', 'r']
  else if c = '\t' then ['\\', 't']
  else if c.toNat = 0 then ['\\', '0']
  else [c]

/- A text between quotation marks. -/
def quote
    (text : String) : String :=
  String.ofList ('"' :: text.toList.flatMap escape ++ ['"'])

/- The wording of an entry. -/
def message : LogEntry → String
  | reloadStarted generation =>
      "reload " ++ Decimal.text generation.toNat ++ " started"
  | supersededBeforeParsing generation =>
      "reload " ++ Decimal.text generation.toNat ++
        " superseded before parsing"
  | supersededBeforeClearing generation =>
      "reload " ++ Decimal.text generation.toNat ++
        " superseded before clearing"
  | loaded => "placeholder configuration loaded"
  | rejected error =>
      "placeholder configuration rejected: " ++ error.message
  | cleared => "placeholder configuration cleared"
  | lookupBroke index segment =>
      "lookup broke at segment " ++ Decimal.text index ++
        " (" ++ quote segment ++ ")"
  | reloadSuperseded path =>
      "reload of " ++ path ++ " superseded by a newer one"
  | eventIgnored kind path =>
      "ignoring " ++ kind.name ++ " event for " ++ path
  | reloadFailed kind error =>
      "reload after " ++ kind.name ++ " event failed: " ++
        error.message
  | notified notice => notice.message

/- The line of an entry. -/
def line
    (entry : LogEntry) : String :=
  entry.level.name ++ " " ++ entry.message

end LogEntry

/- What is logged of a lookup: where it breaks. -/
def Resolution.trace : Resolution → List LogEntry
  | resolved _ => []
  | broken index segment => [.lookupBroke index segment]

end DottedRef
