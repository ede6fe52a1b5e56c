import Spreadsheet.Literal
import Spreadsheet.Saving.Timeline
import Spreadsheet.Settings
import Spreadsheet.Sheet
import Spreadsheet.Store

/-!
# Sessions

A session edits one sheet. A cell is focused, its text is edited in a buffer, and the buffer is
committed; focusing another cell commits the one before. Every commit is carried on through the
sheet, written to the snapshot file and, if something changed, saved to the server after a window
of quiet.

While a cell is focused the sheet is not swept, because the cell may show nothing for a formula
that is being edited. A sheet with errors is not saved to the server.

A call that fails leaves the session as it was.
-/

namespace Spreadsheet

open Text

/-- The focused cell and the text in the buffer. -/
structure Editing where
  address : Address
  buffer : String
  deriving DecidableEq, Repr

/-- A sheet that is edited, its file, and the saves to the server. -/
structure Session where
  settings : Settings
  sheet : Sheet
  /-- Whether the sheet was loaded and not disposed of. -/
  loaded : Bool := false
  editing : Option Editing := none
  store : Store
  manager : Manager Unit

/-- Why a call failed. -/
inductive SessionError where
  | notLoaded
  | missing (cell : MissingCell)
  /-- There is neither an address nor a focused cell. -/
  | noTarget
  deriving DecidableEq, Repr

def SessionError.message : SessionError → String
  | .notLoaded => "Call load() before editing the session"
  | .missing cell => cell.key
  | .noTarget => "No cell is focused and no address was given"

/-- A session after a call, what could be seen of the call, and what it returned. -/
structure Outcome (α : Type) where
  session : Session
  effects : List Effect := []
  result : α

/-- The sheet finds the text to save when the window of quiet ends, if no cell is in error. -/
instance : Saver Session Unit where
  manager s := s.manager
  setManager s m := { s with manager := m }
  read s _ := if s.sheet.grid.hasErrors then none else some s.sheet.grid.csv
  manager_setManager _ _ := rfl

namespace Session

/-! ## Making a session -/

/-- A session that is not loaded yet, with the file in a given state. -/
def ofStore (settings : Settings) (store : Store) : Session where
  settings := settings
  sheet := Sheet.ofGrid settings.emptyGrid none
  store := store
  manager := { config := settings.saving }

/-- A session that is not loaded yet, with no file. -/
def ofSettings (settings : Settings) : Session := ofStore settings (Store.ofPath settings.storagePath)

/-- A new session with the same settings and the same file. -/
def reopen (s : Session) : Session := ofStore s.settings s.store

/-! ## What is seen of a session -/

/-- The text in the buffer, empty if no cell is focused. -/
def editingText (s : Session) : String := (s.editing.map Editing.buffer).getD ""

/-- The cell at an address. -/
def cellAt (s : Session) (a : Address) : Cell := (s.sheet.grid.get? a).getD Cell.empty

/-- Whether a cell is focused. -/
def isFocused (s : Session) (a : Address) : Bool := s.editing.any fun e => e.address == a

/-- Whether the cell that a text names is in error. -/
def isError (s : Session) (address : String) : Except SessionError Bool :=
  match s.sheet.grid.locate address with
  | .ok a => .ok (s.cellAt a).isError
  | .error m => .error (.missing m)

/-- A call that failed. -/
def refuse {α : Type} (s : Session) (e : SessionError) : Outcome (Except SessionError α) :=
  ⟨s, [], .error e⟩

/-- The address that a text names in a loaded session. -/
def locate (s : Session) (address : String) : Except SessionError Address :=
  if s.loaded then
    match s.sheet.grid.locate address with
    | .ok a => .ok a
    | .error m => .error (.missing m)
  else .error .notLoaded

/-! ## Keeping the sheet -/

/-- Writes the snapshot file. -/
def persist (s : Session) : Session × List Effect :=
  match s.store.save s.sheet.grid.snapshot.toJson with
  | .ok store => ({ s with store := store }, [])
  | .error _ =>
    ({ s with store := s.store.reach }, [.notify (.error "Unable to save changes locally")])

/-- Sweeps the sheet, unless a cell is focused. -/
def sweep (s : Session) : Session × SweepResult :=
  match s.editing with
  | some _ => (s, { ran := false })
  | none =>
    let (sheet, result) := s.sheet.reconcile
    ({ s with sheet := sheet }, result)

/-- Starts the window of quiet before a save to the server, unless a cell is in error. Nothing is
started without a clock. -/
def trigger (clock : Option Nat) (s : Session) : Outcome Bool :=
  if s.sheet.grid.hasErrors then
    ⟨s, [.log ⟨.info, "Remote save suppressed: " ++ decimal s.sheet.grid.errorCells.length ++
      " cell(s) in error"⟩], false⟩
  else
    match clock with
    | none => ⟨s, [], false⟩
    | some now => ⟨{ s with manager := s.manager.schedule now () }, [], true⟩

/-! ## Loading -/

/-- The grid in the snapshot file, or an empty one without a file, and what is logged. -/
def storedGrid (s : Session) (stored : Option (List (JsonText × Json))) : Grid × List LogRecord :=
  match stored with
  | none =>
    (s.settings.emptyGrid, [⟨.info, "Initialized new " ++ decimal s.settings.rows ++ "x" ++
      decimal s.settings.columns ++ " grid"⟩])
  | some entries =>
    let (grid, warnings) := Snapshot.restore s.settings.emptyGrid entries
    (grid, warnings.map (fun w => ⟨.warning, w.message⟩) ++
      [⟨.info, "Loaded grid from " ++ s.store.path.text⟩])

/-- Loads the sheet from the snapshot file and brings it up to date. Nothing is focused then. -/
def load (s : Session) : Outcome (Except LoadError Grid) :=
  match s.store.load with
  | .error e => ⟨s, [], .error e⟩
  | .ok stored =>
    let (grid, records) := s.storedGrid stored
    let (sheet, result) := (Sheet.ofGrid grid none).reconcile
    let s := { s with sheet := sheet, loaded := true, editing := none }
    let (s, effects) := if result.changed then s.persist else (s, [])
    ⟨s, records.map .log ++ effects, .ok s.sheet.grid⟩

/-- Drops the saves to the server. The session has to be loaded again. -/
def dispose (s : Session) : Session := { s with manager := s.manager.close, loaded := false }

/-! ## Commits -/

/-- The text that is committed to a cell if none is given: the buffer of the focused cell, and
otherwise what the cell holds. -/
def textAt (s : Session) (a : Address) : String :=
  match s.editing with
  | some e => if e.address = a then e.buffer else (s.cellAt a).formula.getD (s.cellAt a).value
  | none => (s.cellAt a).formula.getD (s.cellAt a).value

/-- The session with a cell no longer focused. -/
def leave (s : Session) (a : Address) : Session :=
  if s.isFocused a then { s with editing := none } else s

/-- What is seen of a commit in the sheet: the warnings in the log and a notice of the error. -/
def commitEffects (r : CommitResult) : List Effect :=
  r.warnings.map (fun w => .log ⟨.warning, w⟩) ++ r.message.toList.map fun m => .notify (.error m)

/-- Commits a text to a cell. -/
def commitAt (clock : Option Nat) (s : Session) (a : Address) (text : String) :
    Outcome CommitResult :=
  let s := s.leave a
  let (sheet, result) := s.sheet.commit a text
  let (s, swept) := { s with sheet := sheet }.sweep
  let (s, written) := s.persist
  let effects := commitEffects result ++ written
  if result.changed || swept.changed then
    let saved := s.trigger clock
    ⟨saved.session, effects ++ saved.effects, result⟩
  else ⟨s, effects, result⟩

/-- The cell that a commit is for: the one at the address or, without an address, the focused
one. -/
def target (s : Session) (address : Option String) : Except SessionError Address :=
  match address with
  | some text => s.locate text
  | none =>
    if s.loaded then
      match s.editing with
      | some e => .ok e.address
      | none => .error .noTarget
    else .error .notLoaded

/-- Commits a text to the cell at an address. Both may be left out. -/
def commit (clock : Option Nat) (s : Session) (address text : Option String) :
    Outcome (Except SessionError CommitResult) :=
  match s.target address with
  | .error e => s.refuse e
  | .ok a =>
    let done := s.commitAt clock a (text.getD (s.textAt a))
    ⟨done.session, done.effects, .ok done.result⟩

/-- Empties a cell. -/
def clear (clock : Option Nat) (s : Session) (address : String) :
    Outcome (Except SessionError CommitResult) :=
  s.commit clock (some address) (some "")

/-! ## Editing -/

/-- Commits the focused cell, if it is another one. -/
def leaveOther (clock : Option Nat) (s : Session) (a : Address) : Session × List Effect :=
  match s.editing with
  | none => (s, [])
  | some e =>
    if e.address = a then (s, [])
    else
      let done := s.commitAt clock e.address e.buffer
      (done.session, done.effects)

/-- The cell as it is while it is focused, and the text in its buffer. An error is cleared: of a
formula until it is committed, of a literal for good. -/
def opened (c : Cell) : Cell × String :=
  match c.formula with
  | some formula =>
    (if c.isError then { c with value := "", error := .none } else c, formula)
  | none => if c.isError then (Cell.empty, "") else (c, c.value)

/-- Focuses a cell. -/
def focusAt (clock : Option Nat) (s : Session) (a : Address) : Outcome String :=
  let (s, left) := s.leaveOther clock a
  let before := s.cellAt a
  let (cell, buffer) := opened before
  let (s, written) :=
    if before.isError then
      { s with sheet := { s.sheet with grid := s.sheet.grid.set a cell } }.persist
    else (s, [])
  ⟨{ s with editing := some ⟨a, buffer⟩ }, left ++ written, buffer⟩

/-- Focuses the cell at an address and returns its buffer. -/
def focus (clock : Option Nat) (s : Session) (address : String) :
    Outcome (Except SessionError String) :=
  match s.locate address with
  | .error e => s.refuse e
  | .ok a =>
    let done := s.focusAt clock a
    ⟨done.session, done.effects, .ok done.result⟩

/-- Whether a text may stand in the buffer: a formula, blanks, or a partial literal. -/
def accepts (text : String) : Bool :=
  Formula.isFormula text || strip text == "" || Literal.isPartial text

/-- Replaces the text in the buffer of a cell, which is focused first if it was not. A text that is
not accepted leaves the buffer as it was. -/
def edit (clock : Option Nat) (s : Session) (address text : String) :
    Outcome (Except SessionError Bool) :=
  match s.locate address with
  | .error e => s.refuse e
  | .ok a =>
    let (s, effects) :=
      if s.isFocused a then (s, [])
      else
        let done := s.focusAt clock a
        (done.session, done.effects)
    if accepts text then ⟨{ s with editing := some ⟨a, text⟩ }, effects, .ok true⟩
    else ⟨s, effects, .ok false⟩

/-! ## Other calls -/

/-- Sweeps the sheet of a loaded session, unless a cell is focused. -/
def reconcile (s : Session) : Outcome (Except SessionError SweepResult) :=
  if s.loaded then
    let (s, result) := s.sweep
    ⟨s, [], .ok result⟩
  else s.refuse .notLoaded

/-- Asks for a save to the server and tells whether one will follow. -/
def save (clock : Option Nat) (s : Session) : Outcome (Except SessionError Bool) :=
  if s.loaded then
    let done := s.trigger clock
    ⟨done.session, done.effects, .ok done.result⟩
  else s.refuse .notLoaded

end Session

end Spreadsheet
