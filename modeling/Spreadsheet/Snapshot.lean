import Spreadsheet.Grid
import Spreadsheet.Json.Plain

/-!
# Snapshots of grids

A snapshot keeps the value and the formula of each cell. Stored as JSON it is an object with an
entry for each address; a grid is restored from any such object, whatever its keys and values,
and what cannot be used is left out with a warning.
-/

namespace Spreadsheet

open Text

/-- The value and the formula of each cell of a grid. -/
abbrev Snapshot := List (Address × String × Option String)

/-- The snapshot of a grid, row by row. -/
def Grid.snapshot (g : Grid) : Snapshot := g.entries.map fun e => (e.1, e.2.content)

/-- The entry of a cell in a stored snapshot. -/
def contentJson (value : String) (formula : Option String) : Json :=
  .object [("value", .string value), ("formula", formula.elim .null fun f => .string f)]

namespace Snapshot

/-- The stored form of a snapshot. -/
def toJson (s : Snapshot) : Json :=
  .object (s.map fun e => (.whole e.1.name, contentJson e.2.1 e.2.2))

/-- Why an entry of a stored snapshot was left out. -/
inductive Warning where
  | invalidAddress (key : JsonText)
  | outOfRange (address : Address)
  | malformedEntry (address : Address)
  deriving DecidableEq, Repr

def Warning.message : Warning → String
  | .invalidAddress key => "Ignoring invalid address " ++ key.quoted ++ " in snapshot"
  | .outOfRange a => "Ignoring out-of-range address " ++ a.name ++ " in snapshot"
  | .malformedEntry a => "Ignoring malformed snapshot entry for " ++ a.name

/-- The cell that a stored entry describes. Values of any type are shown as plain text; what does
not count as present is left empty. A sentinel restores its error state.

The texts of cells have no surrogates that stand alone: here such a surrogate becomes the replacement
character. -/
def cellOfEntry (fields : List (JsonText × Json)) : Cell :=
  let value := Json.lookup "value" fields
  let formula := Json.lookup "formula" fields
  let text := if value.isTruthy then value.plain.text else ""
  { value := text
    formula := if formula.isTruthy then some formula.plain.text else none
    error := ErrorState.ofSentinel text }

/-- Whether the cell that a stored entry describes can be shown. -/
def isShowable (fields : List (JsonText × Json)) : Bool :=
  (Json.lookup "value" fields).isShowable && (Json.lookup "formula" fields).isShowable

/-- The address that a key names. -/
def addressOfKey? : JsonText → Option Address
  | .whole text => (Address.parse text).toOption
  | .broken _ => none

/-- Restores one entry of a stored snapshot. -/
def restoreEntry (g : Grid) (key : JsonText) (entry : Json) : Grid × List Warning :=
  match addressOfKey? key with
  | none => (g, [.invalidAddress key])
  | some a =>
    if g.Contains a then
      match entry.entries? with
      | some fields => (g.set a (cellOfEntry fields), [])
      | none => (g, [.malformedEntry a])
    else (g, [.outOfRange a])

/-- Restores the entries of a stored snapshot in order. -/
def restore (g : Grid) : List (JsonText × Json) → Grid × List Warning
  | [] => (g, [])
  | (key, entry) :: rest =>
    let (g₁, ws₁) := restoreEntry g key entry
    let (g₂, ws₂) := restore g₁ rest
    (g₂, ws₁ ++ ws₂)

/-- Whether the restoring of an entry fails: it is for a cell of the grid that cannot be shown. -/
def stops (g : Grid) (key : JsonText) (entry : Json) : Bool :=
  match addressOfKey? key, entry.entries? with
  | some a, some fields => g.Contains a && !isShowable fields
  | _, _ => false

end Snapshot

/-- The grid of a given size that a stored snapshot describes. -/
def Grid.ofSnapshot (rows columns : Int) (entries : List (JsonText × Json)) :
    Except GridSizeError (Grid × List Snapshot.Warning) :=
  (Grid.ofSize rows columns).bind fun g =>
    if entries.any fun e => Snapshot.stops g e.1 e.2 then .error .tooDeep
    else .ok (Snapshot.restore g entries)

end Spreadsheet
