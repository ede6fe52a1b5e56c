import Spreadsheet.Dependency
import Spreadsheet.Resolution

/-!
# Recalculation

Storing the result of a formula in its cell, and carrying a change on to the cells that depend on
it. The dependents are walked depth first, each at most once; the walk goes on from a dependent
only if what it shows has changed and is no error.

The walk ends because each cell it goes on from is a cell of the grid that was not visited before.
-/

namespace Spreadsheet

open Text

/-- A change of what a cell shows, with the formula of the cell after it. -/
structure Delta where
  address : Address
  before : String
  after : String
  formula : Option String
  deriving DecidableEq, Repr

/-- The change of what a cell shows, if there is one. -/
def Delta.between (a : Address) (before after : Cell) : List Delta :=
  if after.value = before.value then [] else [⟨a, before.value, after.value, after.formula⟩]

/-- The cell that shows the result of its formula. -/
def Cell.ofResult (formula : String) : Except FormulaError Float → Cell
  | .ok x => ⟨Number.display x, some formula, .none⟩
  | .error e => .ofError e.state (some formula)

/-- The result of a formula as that of a cell, and the cell that shows it. -/
def Grid.calculate (g : Grid) (a : Address) (formula : String) (tokens : Tokens) :
    Except FormulaError Float × Cell × Tokens :=
  let (result, known) := g.evaluateFormula formula (.cell a) tokens
  (result, Cell.ofResult formula result, known)

/-! ## Propagation -/

/-- A walk over dependents. -/
structure Walk where
  grid : Grid
  tokens : Tokens
  visited : List Address
  /-- The dependents still to be looked at, one list for each level, the deepest first. -/
  levels : List (List Address)
  deltas : List Delta := []
  /-- How many cells were calculated. -/
  count : Nat := 0
  /-- The depths at which the walk was not continued because of the limit. -/
  stops : List Nat := []

namespace Walk

/-- The walk after a dependent was calculated. -/
def visit (graph : DependencyGraph Address Reference) (limit : Int) (w : Walk) (a : Address)
    (rest : List Address) (above : List (List Address)) : Walk :=
  let w := { w with visited := a :: w.visited, levels := rest :: above }
  match w.grid.get? a with
  | none => w
  | some before =>
    match before.formula with
    | none => w
    | some formula =>
      let (_, cell, known) := w.grid.calculate a formula w.tokens
      let w := { w with
        grid := w.grid.set a cell
        tokens := known
        count := w.count + 1
        deltas := w.deltas ++ Delta.between a before cell }
      if cell.value = before.value then w
      else if cell.isError then w
      else
        let depth := above.length + 1
        if limit ≤ depth then { w with stops := w.stops ++ [depth] }
        else { w with levels := graph.dependentsOf (.cell a) :: rest :: above }

/-- One step: looks at the next dependent of the deepest level, or leaves the level. -/
def step (graph : DependencyGraph Address Reference) (limit : Int) (w : Walk) : Option Walk :=
  match w.levels with
  | [] => none
  | [] :: above => some { w with levels := above }
  | (a :: rest) :: above =>
    if w.visited.contains a then some { w with levels := rest :: above }
    else some (w.visit graph limit a rest above)

/-- The cells of the grid that are not visited. -/
def unvisited (w : Walk) : List Address := w.grid.addresses.filter fun a => !w.visited.contains a

/-- The levels and the dependents on them. -/
def work (w : Walk) : Nat := total (fun l => l.length + 1) w.levels

/-- What gets smaller with each step: the unvisited cells, and then the work left. -/
def measure (w : Walk) : Nat × Nat := (w.unvisited.length, w.work)

theorem visit_cases (graph : DependencyGraph Address Reference) (limit : Int) (w : Walk)
    (a : Address) (rest : List Address) (above : List (List Address)) :
    let t := w.visit graph limit a rest above
    t.grid.addresses = w.grid.addresses ∧ t.visited = a :: w.visited ∧
      (t.levels = rest :: above ∨ a ∈ w.grid.addresses) := by
  intro t
  simp only [t, visit]
  split
  · exact ⟨rfl, rfl, .inl rfl⟩
  · rename_i before hb
    have hmem : a ∈ w.grid.addresses := Grid.mem_addresses.2 (Grid.contains_of_get? hb)
    split
    · exact ⟨rfl, rfl, .inl rfl⟩
    · split
      · exact ⟨Grid.addresses_set .., rfl, .inr hmem⟩
      · split
        · exact ⟨Grid.addresses_set .., rfl, .inr hmem⟩
        · split <;> exact ⟨Grid.addresses_set .., rfl, .inr hmem⟩

theorem measure_step {graph : DependencyGraph Address Reference} {limit : Int} {w t : Walk}
    (h : w.step graph limit = some t) : Prod.Lex (· < ·) (· < ·) t.measure w.measure := by
  unfold step at h
  split at h
  · simp at h
  · rename_i above hl
    cases h
    exact Prod.Lex.right _ (by simp [work, hl])
  · rename_i a rest above hl
    split at h
    · cases h
      exact Prod.Lex.right _ (by simp [work, hl])
    · rename_i hv
      cases h
      obtain ⟨hg, hvis, hcase⟩ := visit_cases graph limit w a rest above
      have himp : ∀ x ∈ w.grid.addresses,
          (!(w.visit graph limit a rest above).visited.contains x) → !w.visited.contains x := by
        intro x _ hx
        rw [hvis] at hx
        simp only [List.contains_cons, Bool.not_or, Bool.and_eq_true] at hx
        exact hx.2
      rcases hcase with hlev | hmem
      · refine lex_of_le ?_ (by simp [work, hlev, hl])
        simp only [unvisited, hg]
        exact length_filter_le_of_imp himp
      · refine Prod.Lex.left _ _ ?_
        simp only [unvisited, hg]
        exact length_filter_lt_of_imp hmem (by simpa using hv) (by simp [hvis]) himp

/-- Walks on until no dependent is left. -/
def run (graph : DependencyGraph Address Reference) (limit : Int) (w : Walk) : Walk :=
  match _h : w.step graph limit with
  | some next => run graph limit next
  | none => w
  termination_by w.measure
  decreasing_by exact measure_step _h

end Walk

/-- Carries the change of a cell on to its dependents. -/
def Grid.propagate (g : Grid) (a : Address) (limit : Int) (tokens : Tokens) : Walk :=
  let graph := g.dependencyGraph
  Walk.run graph limit
    { grid := g, tokens := tokens, visited := [a], levels := [graph.dependentsOf (.cell a)] }

/-! ## Commits -/

/-- The outcome of committing a text to a cell. -/
structure CommitResult where
  address : Address
  value : String
  error : ErrorState
  deltas : List Delta
  /-- Why the cell is in error. -/
  message : Option String
  /-- How many dependents were calculated. -/
  propagated : Nat
  /-- The depths at which propagation was stopped by the limit. -/
  stops : List Nat
  deriving DecidableEq, Repr

namespace CommitResult

def isError (r : CommitResult) : Bool := r.error != .none

def changed (r : CommitResult) : Bool := !r.deltas.isEmpty

/-- A warning for each place where propagation was stopped. -/
def warnings (r : CommitResult) : List String :=
  r.stops.map fun depth =>
    "Propagation from " ++ r.address.name ++ " stopped at depth " ++ decimal depth

end CommitResult

/-- The cell after a stripped text was entered, why it is in error, and the tokens known then. -/
def Grid.enter (g : Grid) (a : Address) (text : String) : Cell × Option String × Tokens :=
  if Formula.isFormula text then
    match g.calculate a text [] with
    | (.ok _, cell, known) => (cell, none, known)
    | (.error e, cell, known) => (cell, some e.message, known)
  else if text = "" then (Cell.empty, none, [])
  else if Literal.isComplete text then (Cell.ofLiteral text, none, [])
  else (Cell.ofError .error none, some (invalidFormatMessage a.name text), [])

/-- Commits a text to a cell of the grid and carries the change on to its dependents. -/
def Grid.commit (g : Grid) (limit : Int) (a : Address) (text : String) : Grid × CommitResult :=
  let before := (g.get? a).getD Cell.empty
  let (cell, message, tokens) := g.enter a (strip text)
  let entered := g.set a cell
  let delta := Delta.between a before cell
  if delta.isEmpty || cell.isError then
    (entered, ⟨a, cell.value, cell.error, delta, message, 0, []⟩)
  else
    let walk := entered.propagate a limit tokens
    (walk.grid, ⟨a, cell.value, cell.error, delta ++ walk.deltas, message, walk.count, walk.stops⟩)

/-! ## Sweeps -/

/-- Calculates formula cells in order with tokens that they share. -/
def Grid.recalculate (g : Grid) (tokens : Tokens) : List (Address × String) → Grid × List Delta
  | [] => (g, [])
  | (a, formula) :: rest =>
    let before := (g.get? a).getD Cell.empty
    let (_, cell, known) := g.calculate a formula tokens
    let (swept, deltas) := (g.set a cell).recalculate known rest
    (swept, Delta.between a before cell ++ deltas)

/-- The outcome of a sweep over all formula cells. -/
structure SweepResult where
  /-- Whether the grid had changed since the last sweep. -/
  ran : Bool
  deltas : List Delta := []
  /-- The number of formula cells. -/
  total : Nat := 0
  deriving DecidableEq, Repr

def SweepResult.changed (r : SweepResult) : Bool := !r.deltas.isEmpty

end Spreadsheet
