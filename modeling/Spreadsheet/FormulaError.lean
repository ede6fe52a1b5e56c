import Spreadsheet.Address
import Spreadsheet.Cell

/-!
# Failures of formulas

Why a formula has no value, how the failure is told to the user, and how it shows in the cell.
-/

namespace Spreadsheet

open Text

/-- Why an expression has no value. -/
inductive EvaluationError where
  /-- An operand is missing, or a character is not allowed. -/
  | incomplete
  | unbalanced
  | divisionByZero
  | unreadable (text : String)
  | nestedTooDeeply
  | notFinite
  | notANumber (cell : Reference)
  /-- A failure that a given text describes. -/
  | described (text : String)
  deriving DecidableEq, Repr

def EvaluationError.message : EvaluationError → String
  | .incomplete => "Invalid or incomplete formula"
  | .unbalanced => "Unbalanced parentheses"
  | .divisionByZero => "Division by zero"
  | .unreadable text => "Cannot evaluate " ++ quoted text
  | .nestedTooDeeply => "Formula is nested too deeply"
  | .notFinite => "Invalid formula result"
  | .notANumber cell => "Cell " ++ cell.name ++ " does not hold a number"
  | .described text => text

/-- Why a formula has no value. -/
inductive FormulaError where
  | evaluation (cause : EvaluationError)
  | unknownReference (reference : Reference)
  /-- The reference closes the chain of references that starts with the evaluated cell. -/
  | circular (chain : List Reference) (reference : Reference)
  deriving DecidableEq, Repr

namespace FormulaError

/-- The kinds of failure that a user can tell apart. -/
inductive Kind where
  | invalid
  | unknownReference
  | circular
  deriving DecidableEq, Repr

def kind : FormulaError → Kind
  | .evaluation _ => .invalid
  | .unknownReference _ => .unknownReference
  | .circular _ _ => .circular

/-- The word for a kind of failure. -/
def Kind.word : Kind → String
  | .invalid => "invalid"
  | .unknownReference => "unknown_reference"
  | .circular => "circular"

def message : FormulaError → String
  | .evaluation cause => cause.message
  | .unknownReference r => "Invalid cell reference " ++ r.name
  | .circular chain r =>
    "Circular dependency detected: " ++ " -> ".intercalate ((chain ++ [r]).map Reference.name)

/-- The state of a cell whose formula failed. -/
def state : FormulaError → ErrorState
  | .circular _ _ => .circular
  | _ => .error

/-- The value that a cell shows when its formula failed. -/
def sentinel (e : FormulaError) : String := e.state.sentinel

end FormulaError

/-- The message for a text that is neither a formula nor a literal. -/
def invalidFormatMessage (address text : String) : String :=
  "Invalid value format in " ++ address ++ ": " ++ quoted text

end Spreadsheet
