import Spreadsheet.Recalculation
import Spreadsheet.Snapshot

/-!
# Sheets

A sheet is a grid that is kept current: texts are committed to its cells, and a sweep calculates
all formulas anew if anything has changed since the sweep before.
-/

namespace Spreadsheet

/-- A grid, how far a change is carried on, and what the grid held after the last sweep. -/
structure Sheet where
  grid : Grid
  depthLimit : Int
  /-- Empty before the first sweep. -/
  swept : Snapshot

namespace Sheet

/-- The sheet of a grid that was never swept. Without a limit, or with zero, a change is carried as
far as the grid has cells. -/
def ofGrid (g : Grid) (depthLimit : Option Int) : Sheet :=
  ⟨g, match depthLimit with
    | none => g.size
    | some limit => if limit = 0 then g.size else limit, []⟩

/-- Commits a text to a cell. -/
def commit (s : Sheet) (a : Address) (text : String) : Sheet × CommitResult :=
  let (g, result) := s.grid.commit s.depthLimit a text
  ({ s with grid := g }, result)

/-- Whether the grid differs from what it held after the last sweep. -/
def hasChanged (s : Sheet) : Bool := s.grid.snapshot != s.swept

/-- Calculates every formula cell if the grid has changed since the last sweep. -/
def reconcile (s : Sheet) : Sheet × SweepResult :=
  if s.hasChanged then
    let cells := s.grid.formulaCells
    let (g, deltas) := s.grid.recalculate [] cells
    ({ s with grid := g, swept := g.snapshot }, ⟨true, deltas, cells.length⟩)
  else (s, { ran := false })

end Sheet

end Spreadsheet
