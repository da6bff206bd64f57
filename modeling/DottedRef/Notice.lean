import DottedRef.Json.Printer
import DottedRef.LoadError

/-
  This file defines what a user is told about loading and
  deleting the configuration.

  Key definitions include:
    * `NoticeLevel`
    * `Notification`
    * `Notification.render`
    * `Notice`
    * `Notice.notification`
-/

namespace DottedRef

------------------------------------------------------------
-- Notifications
------------------------------------------------------------

/- How a message is shown. -/
inductive NoticeLevel where
  | info
  | warning
  | error
deriving DecidableEq

/- The name of a level. -/
def NoticeLevel.name : NoticeLevel → String
  | info => "info"
  | warning => "warning"
  | error => "error"

/- A message for the user. -/
structure Notification where
  level : NoticeLevel
  message : String
deriving DecidableEq

/- The text of a notification as a JSON object. -/
def Notification.render
    (notification : Notification) : String :=
  (Json.Node.object
    [("level", .string notification.level.name),
      ("message", .string notification.message)]).render

------------------------------------------------------------
-- Occasions
------------------------------------------------------------

/- The occasions for a notification. -/
inductive Notice where
  | loaded (path : String)
  | failed (error : LoadError)
  | deleted (path : String)
deriving DecidableEq

namespace Notice

/-
  A missing file is no failure to the user, who may not want
  a configuration.
-/
def level : Notice → NoticeLevel
  | loaded _ => .info
  | failed (.missing _) => .info
  | failed (.unreadable _ _) => .error
  | failed (.malformed _ _ _ _) => .error
  | deleted _ => .warning

/- The wording for an occasion. -/
def message : Notice → String
  | loaded path => "Placeholder configuration " ++ path ++ " loaded"
  | failed error => error.message
  | deleted path => "Placeholder configuration " ++ path ++ " deleted"

/- The notification for an occasion. -/
def notification
    (notice : Notice) : Notification :=
  ⟨notice.level, notice.message⟩

end Notice

end DottedRef
