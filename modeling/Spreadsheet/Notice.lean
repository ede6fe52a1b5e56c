import Spreadsheet.Text.Letter
import Spreadsheet.Text.Quoted

/-!
# Notices

Short messages for the user. They are shown, kept in a list, or written to the log.
-/

namespace Spreadsheet

open Text

/-- How good the news is. -/
inductive Level where
  | info
  | success
  | error
  deriving DecidableEq, Repr

namespace Level

/-- The word for a level. -/
def word : Level → String
  | .info => "info"
  | .success => "success"
  | .error => "error"

/-- The level with a given word. -/
def ofWord? (word : String) : Option Level :=
  [Level.info, .success, .error].find? fun l => l.word == word

end Level

/-- How important a record in the log is. -/
inductive Severity where
  | debug
  | info
  | warning
  | error
  | critical
  deriving DecidableEq, Repr

namespace Severity

/-- The name of a severity in the log. -/
def name : Severity → String
  | .debug => "DEBUG"
  | .info => "INFO"
  | .warning => "WARNING"
  | .error => "ERROR"
  | .critical => "CRITICAL"

/-- All severities in the order of their names. -/
def all : List Severity := [.critical, .debug, .error, .info, .warning]

/-- The severity with a given name in any case. -/
def ofName? (name : String) : Option Severity :=
  all.find? fun s => name.toList.map capital == s.name.toList.map fun c => .single c.toNat

end Severity

/-- A record in the log. -/
structure LogRecord where
  severity : Severity
  message : String
  deriving DecidableEq, Repr

/-- A message for the user. -/
structure Notice where
  level : Level
  title : String
  message : String
  deriving DecidableEq, Repr

namespace Notice

def info (message : String) : Notice := ⟨.info, "Info", message⟩

def success (message : String) : Notice := ⟨.success, "Success", message⟩

def error (message : String) : Notice := ⟨.error, "Error", message⟩

/-- The record that a notice leaves in the log; bad news is a warning. -/
def toLog (n : Notice) : LogRecord :=
  ⟨match n.level with
    | .error => .warning
    | _ => .info, n.title ++ ": " ++ n.message⟩

/-- The messages of the notices of a level, or of all without one. -/
def messages (level : Option Level) (notices : List Notice) : List String :=
  (notices.filter fun n => level.all fun l => n.level == l).map Notice.message

end Notice

end Spreadsheet
