/-!
# Cells

A cell shows a value: a literal as it was entered, the last result of its formula, or a sentinel
that stands for an error.
-/

namespace Spreadsheet

/-- What is wrong with a cell. -/
inductive ErrorState where
  | none
  | error
  /-- The formula depends on its own cell. -/
  | circular
  deriving DecidableEq, Repr

namespace ErrorState

/-- The value that a cell in this state shows. -/
def sentinel : ErrorState → String
  | .none => ""
  | .error => "#ERROR"
  | .circular => "#CIRCULAR_REF"

/-- The state that a value stands for; a value that is no sentinel stands for none. -/
def ofSentinel (value : String) : ErrorState :=
  if value = ErrorState.error.sentinel then .error
  else if value = ErrorState.circular.sentinel then .circular
  else .none

/-- The word for a state. -/
def word : ErrorState → String
  | .none => "none"
  | .error => "error"
  | .circular => "circular_ref"

/-- The state with a given word. -/
def ofWord? (word : String) : Option ErrorState :=
  [ErrorState.none, .error, .circular].find? fun s => s.word == word

end ErrorState

/-- The content of a cell. The value is what the cell shows; a formula is kept as it was entered,
with its equals sign. -/
structure Cell where
  value : String := ""
  formula : Option String := none
  error : ErrorState := .none
  deriving DecidableEq, Repr, Inhabited

namespace Cell

/-- The cell with nothing in it. -/
def empty : Cell := {}

/-- Whether the cell is in an error state or shows a sentinel. -/
def isError (c : Cell) : Bool :=
  c.error != .none || c.value == ErrorState.error.sentinel || c.value == ErrorState.circular.sentinel

/-- Whether the cell has neither a value nor a formula. -/
def isEmpty (c : Cell) : Bool := c.value == "" && c.formula.isNone

/-- The cell that shows an error. -/
def ofError (state : ErrorState) (formula : Option String) : Cell := ⟨state.sentinel, formula, state⟩

/-- The cell that holds a literal. -/
def ofLiteral (text : String) : Cell := ⟨text, none, .none⟩

/-- The content that a snapshot keeps of a cell: value and formula. -/
def content (c : Cell) : String × Option String := (c.value, c.formula)

end Cell

end Spreadsheet
