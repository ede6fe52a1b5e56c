import Spreadsheet.Proofs.Session.Kept
import Spreadsheet.Proofs.Text.Stripping

/-!
# What is in the cells was entered

The cells of a session whose file was never changed by others hold what was entered as a text, or
calculated from it (`Cell.Entered`). So its formulas and literals are stripped texts, and a cell
that is committed as it is holds the same formula or literal again, unless it shows the error of a
text that was none (`Cell.Entered.inputOfText`).

This is a property that is kept by all that is done to cells (`Cell.kept_entered`), so it holds after
every run (`entered_run`), of the sheet and of the entries of the file.
-/

namespace Spreadsheet

open Text

/-! ## Cells -/

/-- The cells that a text may give. -/
inductive Cell.Entered : Cell → Prop
  | empty : Entered .empty
  | literal {text : String} : strip text = text → Literal.isComplete text = true →
      Entered (.ofLiteral text)
  /-- The text was neither a formula nor a literal. -/
  | invalid : Entered (.ofError .error none)
  | formula {text : String} (result : Except FormulaError Float) : strip text = text →
      Formula.isFormula text = true → Entered (.ofResult text result)
  /-- The error of the formula was cleared when the cell was opened. -/
  | cleared {text : String} : strip text = text → Formula.isFormula text = true →
      Entered ⟨"", some text, .none⟩

namespace Cell.Entered

variable {c : Cell} {text : String}

theorem marked (h : c.Entered) : c.Marked := by
  cases h with
  | empty => exact marked_empty
  | literal _ hcomplete => exact marked_ofLiteral hcomplete
  | invalid => exact marked_ofError .error none
  | formula result _ _ => exact marked_ofResult _ result
  | cleared _ _ => rfl

/-- A formula in the cell was entered as it is. -/
theorem of_formula (h : c.Entered) (hf : c.formula = some text) :
    strip text = text ∧ Formula.isFormula text = true := by
  cases h with
  | formula result hstrip hformula =>
    rw [formula_ofResult] at hf
    obtain rfl := Option.some.inj hf
    exact ⟨hstrip, hformula⟩
  | cleared hstrip hformula =>
    obtain rfl := Option.some.inj hf
    exact ⟨hstrip, hformula⟩
  | _ => cases hf

theorem formula_ne (h : c.Entered) : c.formula ≠ some "" := by
  intro hf
  have hformula := (h.of_formula hf).2
  cases hformula

/-- A result may be stored in the cell of its formula. -/
theorem ofResult (h : c.Entered) (hf : c.formula = some text)
    (result : Except FormulaError Float) : (Cell.ofResult text result).Entered :=
  .formula result (h.of_formula hf).1 (h.of_formula hf).2

theorem opened (h : c.Entered) : (Session.opened c).1.Entered := by
  rw [Session.opened_cell]
  split
  · cases hf : c.formula with
    | none => exact .empty
    | some text =>
      obtain ⟨hstrip, hformula⟩ := h.of_formula hf
      exact .cleared hstrip hformula
  · exact h

/-- **A cell that is committed as it is** holds the same formula or literal again. -/
theorem inputOfText (h : c.Entered) (herror : c.formula = none → c.isError = false) :
    Grid.inputOfText (strip (Session.opened c).2) = c.input := by
  cases hf : c.formula with
  | some text =>
    obtain ⟨hstrip, hformula⟩ := h.of_formula hf
    rw [Session.opened, hf, input_of_formula hf, Grid.inputOfText]
    dsimp only
    rw [hstrip, if_pos hformula]
  | none =>
    have hopened : (Session.opened c).2 = c.value := by
      rw [Session.opened, hf]
      dsimp only
      rw [herror hf, if_neg Bool.false_ne_true]
    rw [hopened, input_of_literal hf, Grid.inputOfText]
    cases h with
    | empty => rfl
    | @literal text hstrip hcomplete =>
      -- A literal is not taken for a formula, because it does not start with an equals sign.
      have hformula : ¬ Formula.isFormula text = true := by
        intro hformula
        exact absurd (head?_of_isComplete hcomplete (by simpa [Formula.isFormula] using hformula))
          (by decide)
      have hne : text ≠ "" := by
        rintro rfl
        cases hcomplete
      rw [Cell.ofLiteral, hstrip, if_neg hformula, if_neg hne, if_pos hcomplete]
    | invalid => cases herror rfl
    | formula result _ _ =>
      rw [formula_ofResult] at hf
      cases hf
    | cleared _ _ => cases hf

end Cell.Entered

/-- Whatever the text is, what is in the cell then was entered. -/
theorem Grid.entered_enter (g : Grid) (a : Address) (text : String) :
    (g.enter a (strip text)).1.Entered := by
  have henters := g.enters_enter a (strip text)
  generalize (g.enter a (strip text)).1 = cell at henters ⊢
  cases henters with
  | formula result hformula => exact .formula result (strip_strip text) hformula
  | empty => exact .empty
  | literal _ _ hcomplete => exact .literal (strip_strip text) hcomplete
  | invalid => exact .invalid

/-- All that is done to cells keeps it that what is in them was entered. -/
theorem Cell.kept_entered : Cell.Kept Cell.Entered where
  empty := .empty
  entered := Grid.entered_enter
  ofResult result hc hf := hc.ofResult hf result
  opened hc := hc.opened
  marked hc := hc.marked
  formula_ne hc := hc.formula_ne

/-! ## Sessions -/

/-- All that is in the cells was entered. -/
def Grid.Entered (g : Grid) : Prop := ∀ a c, g.get? a = some c → c.Entered

/-- The entries of a file describe cells in which all was entered. -/
def Snapshot.EntriesEntered (entries : List (JsonText × Json)) : Prop :=
  ∀ e ∈ entries, ∀ fields, e.2.entries? = some fields → (cellOfEntry fields).Entered

/-- If there are entries in the file, all was entered. -/
def Store.HoldsEntered (s : Store) : Prop :=
  ∀ entries, s.load = .ok (some entries) → Snapshot.EntriesEntered entries

namespace Session

/-- What is in the sheet was entered, and what is in the file too. -/
structure Entered (s : Session) : Prop where
  grid : s.sheet.grid.Entered
  file : s.store.HoldsEntered

theorem entered_cellAt {s : Session} (h : s.sheet.grid.Entered) (a : Address) :
    (s.cellAt a).Entered :=
  holds_cellAt .empty (h a)

/-- **What is in the cells was entered**, if there was nothing in the file at first. -/
theorem entered_run {settings : Settings} {store : Store} (hstore : store.load = .ok none)
    {moves : List Move} (hmoves : ∀ v ∈ moves, v.isOwn = true) :
    ((ofStore settings store).run moves).Entered := by
  have hfile : store.Describes Cell.Entered := by
    intro entries hload
    rw [hstore] at hload
    cases hload
  have hholds := holds_run Cell.kept_entered settings hfile hmoves
  exact ⟨hholds.grid, hholds.file⟩

end Session

end Spreadsheet
