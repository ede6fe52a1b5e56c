import Spreadsheet.Grid
import Spreadsheet.Pairs

/-!
# Dependency graphs

Which cells a formula reads, and which formulas read a cell. A graph is built by registering
formula cells one by one; the cells that read a reference are listed in the order of registration.
Formula cells and references are named by any types: addresses and references in a grid.
-/

namespace Spreadsheet

/-- The formulas registered so far, with both directions of their references. -/
structure DependencyGraph (Node Name : Type) where
  /-- What each formula cell reads, in order of first occurrence. -/
  dependencies : List (Node × List Name) := []
  /-- The formula cells that read a name, in order of registration. -/
  dependents : List (Name × List Node) := []
  formulas : List (Node × String) := []

namespace DependencyGraph

variable {Node Name : Type} [DecidableEq Node] [DecidableEq Name]

/-- Registers a formula that reads the given names. What was registered for the cell before keeps
its place in the list of dependents. -/
def register (graph : DependencyGraph Node Name) (cell : Node) (formula : String)
    (reads : List Name) : DependencyGraph Node Name where
  formulas := Pairs.set cell formula graph.formulas
  dependencies := Pairs.set cell reads graph.dependencies
  dependents := reads.foldl
    (fun acc r => Pairs.update r (fun cells => cells.getD [] ++ [cell]) acc) graph.dependents

/-- The formula cells that read a name. -/
def dependentsOf (graph : DependencyGraph Node Name) (r : Name) : List Node :=
  (Pairs.get? r graph.dependents).getD []

/-- The graph of formulas, registered in order. -/
def ofFormulas (reads : String → List Name) (formulas : List (Node × String)) :
    DependencyGraph Node Name :=
  formulas.foldl (fun graph f => graph.register f.1 f.2 (reads f.2)) {}

end DependencyGraph

/-- What a formula, with its equals sign, reads. -/
def Formula.reads (formula : String) : List Reference := references (body formula)

/-- The graph of the formula cells of a grid, registered row by row. -/
def Grid.dependencyGraph (g : Grid) : DependencyGraph Address Reference :=
  .ofFormulas Formula.reads g.formulaCells

end Spreadsheet
