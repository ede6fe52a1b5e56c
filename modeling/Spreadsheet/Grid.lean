import Spreadsheet.Address
import Spreadsheet.Cell
import Spreadsheet.Formula

/-!
# Grids

A grid has a fixed number of rows and of columns, one cell for each address in them. Cells are
listed row by row, everywhere in the same order.
-/

namespace Spreadsheet

open Text

/-- Cells in rows and columns, kept row by row. -/
structure Grid where
  rows : Nat
  columns : Nat
  rows_pos : 0 < rows
  columns_pos : 0 < columns
  columns_le : columns ≤ 26
  cells : Vector Cell (rows * columns)

/-- Why there is no grid of a given size, or none with given contents. -/
inductive GridSizeError where
  | rows (given : Int)
  | columns (given : Int)
  /-- The contents of a cell have values inside too many others. -/
  | tooDeep
  deriving DecidableEq, Repr

def GridSizeError.message : GridSizeError → String
  | .rows given => "rows must be >= 1, got " ++ signedDecimal given
  | .columns given => "columns must be in 1..26, got " ++ signedDecimal given
  | .tooDeep => "maximum recursion depth exceeded while getting the repr of an object"

/-- A text names no cell of the grid. The key is the canonical name if the text is an address, and
otherwise the text. -/
structure MissingCell where
  key : String
  deriving DecidableEq, Repr

namespace Grid

/-! ## Making a grid -/

/-- The grid of empty cells. -/
def empty (rows columns : Nat) (rows_pos : 0 < rows) (columns_pos : 0 < columns)
    (columns_le : columns ≤ 26) : Grid :=
  ⟨rows, columns, rows_pos, columns_pos, columns_le, Vector.replicate _ Cell.empty⟩

/-- The grid of empty cells of a given size. -/
def ofSize (rows columns : Int) : Except GridSizeError Grid :=
  if hr : rows < 1 then .error (.rows rows)
  else if hc : 1 ≤ columns ∧ columns ≤ 26 then
    .ok (empty rows.toNat columns.toNat (by omega) (by omega) (by omega))
  else .error (.columns columns)

/-- Whether two grids have the same size. -/
def SameSize (g h : Grid) : Prop := g.rows = h.rows ∧ g.columns = h.columns

/-- The number of cells. -/
def size (g : Grid) : Nat := g.rows * g.columns

/-! ## Cells by address -/

/-- Whether an address lies in the grid. -/
def Contains (g : Grid) (a : Address) : Prop := a.row < g.rows ∧ a.column.val < g.columns

instance (g : Grid) (a : Address) : Decidable (g.Contains a) :=
  inferInstanceAs (Decidable (_ ∧ _))

/-- The place of an address in the list of cells. -/
def index (g : Grid) (a : Address) : Nat := a.row * g.columns + a.column.val

theorem index_lt {g : Grid} {a : Address} (h : g.Contains a) : g.index a < g.rows * g.columns :=
  calc g.index a < a.row * g.columns + g.columns := Nat.add_lt_add_left h.2 _
    _ = (a.row + 1) * g.columns := (Nat.succ_mul ..).symm
    _ ≤ g.rows * g.columns := Nat.mul_le_mul_right _ h.1

/-- Addresses in the grid have places of their own. -/
theorem index_inj {g : Grid} {a b : Address} (ha : g.Contains a) (hb : g.Contains b)
    (h : g.index a = g.index b) : a = b := by
  obtain ⟨r, c⟩ := a
  obtain ⟨s, d⟩ := b
  have hrow : ∀ (x : Nat) (y : Fin 26), y.val < g.columns →
      (x * g.columns + y.val) / g.columns = x ∧ (x * g.columns + y.val) % g.columns = y.val := by
    intro x y hy
    rw [Nat.add_comm, Nat.add_mul_div_right _ _ g.columns_pos, Nat.add_mul_mod_self_right,
      Nat.div_eq_of_lt hy, Nat.mod_eq_of_lt hy]
    exact ⟨Nat.zero_add x, rfl⟩
  have h₁ := hrow r c ha.2
  have h₂ := hrow s d hb.2
  simp only [index] at h
  rw [h] at h₁
  rw [Address.mk.injEq]
  exact ⟨h₁.1.symm.trans h₂.1, Fin.ext (h₁.2.symm.trans h₂.2)⟩

/-- The cell at an address, if it lies in the grid. -/
def get? (g : Grid) (a : Address) : Option Cell :=
  if h : g.Contains a then some (g.cells.get ⟨g.index a, index_lt h⟩) else none

/-- The grid with a cell replaced; an address outside changes nothing. -/
def set (g : Grid) (a : Address) (c : Cell) : Grid :=
  if h : g.Contains a then { g with cells := g.cells.set (g.index a) c (index_lt h) } else g

/-- The cell that a reference names. -/
def find? (g : Grid) : Reference → Option Cell
  | .cell a => g.get? a
  | .unknown _ => none

/-- The address that a text names, if it lies in the grid. -/
def locate (g : Grid) (text : String) : Except MissingCell Address :=
  match Address.parse text with
  | .error _ => .error ⟨text⟩
  | .ok a => if g.Contains a then .ok a else .error ⟨a.name⟩

/-! ## Listing -/

/-- The addresses, row by row. -/
def addresses (g : Grid) : List Address := Address.block g.rows g.columns

theorem mem_addresses {g : Grid} {a : Address} : a ∈ g.addresses ↔ g.Contains a :=
  Address.mem_block

theorem addresses_set (g : Grid) (a : Address) (c : Cell) : (g.set a c).addresses = g.addresses := by
  unfold set
  split <;> rfl

theorem contains_set {g : Grid} {a b : Address} {c : Cell} :
    (g.set a c).Contains b ↔ g.Contains b := by
  rw [← mem_addresses, addresses_set, mem_addresses]

/-- A cell that was set is found at its address, and all others are as they were. -/
theorem get?_set {g : Grid} {a b : Address} {c : Cell} (h : g.Contains a) :
    (g.set a c).get? b = if b = a then some c else g.get? b := by
  have hset : g.set a c = { g with cells := g.cells.set (g.index a) c (index_lt h) } := dif_pos h
  rw [hset]
  by_cases hb : g.Contains b
  · have hget : g.get? b = some (g.cells.get ⟨g.index b, index_lt hb⟩) := dif_pos hb
    refine (dif_pos hb).trans ?_
    by_cases hab : b = a
    · subst hab
      rw [if_pos rfl]
      exact congrArg some (Vector.getElem_set_self (index_lt h))
    · have hne : g.index a ≠ g.index b := fun e => hab (index_inj h hb e).symm
      rw [if_neg hab, hget]
      exact congrArg some (Vector.getElem_set_ne (index_lt h) (index_lt hb) hne)
  · have hab : b ≠ a := fun e => hb (e ▸ h)
    have hget : g.get? b = none := dif_neg hb
    rw [if_neg hab, hget]
    exact dif_neg hb

theorem get?_set_of_ne {g : Grid} {a b : Address} {c : Cell} (h : b ≠ a) :
    (g.set a c).get? b = g.get? b := by
  by_cases ha : g.Contains a
  · rw [get?_set ha, if_neg h]
  · rw [set, dif_neg ha]

/-- A cell is the one that was set, or it was there before. -/
theorem eq_or_get?_of_set {g : Grid} {a b : Address} {c d : Cell}
    (h : (g.set a c).get? b = some d) : d = c ∨ g.get? b = some d := by
  by_cases ha : g.Contains a
  · rw [get?_set ha] at h
    split at h
    · exact .inl (Option.some.inj h).symm
    · exact .inr h
  · rw [set, dif_neg ha] at h
    exact .inr h

theorem contains_of_get? {g : Grid} {a : Address} {c : Cell} (h : g.get? a = some c) :
    g.Contains a := by
  unfold get? at h
  split at h
  · assumption
  · simp at h

/-- The cells with their addresses, row by row. -/
def entries (g : Grid) : List (Address × Cell) :=
  g.addresses.filterMap fun a => (g.get? a).map fun c => (a, c)

/-- The cells with a formula, row by row. -/
def formulaCells (g : Grid) : List (Address × String) :=
  g.entries.filterMap fun e => e.2.formula.map fun f => (e.1, f)

/-- The cells in error, row by row. -/
def errorCells (g : Grid) : List Address := (g.entries.filter fun e => e.2.isError).map Prod.fst

/-- Whether a cell is in error. -/
def hasErrors (g : Grid) : Bool := g.entries.any fun e => e.2.isError

/-- The cells that are not as an empty grid has them. -/
def usedCells (g : Grid) : List (Address × Cell) := g.entries.filter fun e => e.2 != Cell.empty

/-! ## Texts -/

/-- The values, commas between the fields of a row and line feeds between the rows. -/
def csv (g : Grid) : String :=
  "\n".intercalate <| (List.range g.rows).map fun r =>
    ",".intercalate <| (Address.firstColumns g.columns).map fun c =>
      ((g.get? ⟨r, c⟩).getD Cell.empty).value

/-- The size of the grid for messages. -/
def describe (g : Grid) : String := "<Grid " ++ decimal g.rows ++ "x" ++ decimal g.columns ++ ">"

/-! ## Placing text without evaluation -/

/-- Puts a formula with a given value, or a literal, into the cell that a text names. The error
state stays as it is. -/
def place (g : Grid) (address text value : String) : Except MissingCell Grid :=
  (g.locate address).map fun a =>
    match g.get? a with
    | none => g
    | some c =>
      if Formula.isFormula text then g.set a { c with formula := some text, value := value }
      else g.set a { c with formula := none, value := text }

end Grid

end Spreadsheet
