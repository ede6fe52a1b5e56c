import Spreadsheet.Proofs.Grid.Csv
import Spreadsheet.Proofs.Recalculation.Shown
import Spreadsheet.Proofs.Session.Displays
import Spreadsheet.Proofs.Session.Kept
import Spreadsheet.Proofs.Session.Unswept
import Spreadsheet.Proofs.Substitution.Tokens
import Spreadsheet.Proofs.Text.Stripping

/-!
# Reading what a session hands over

When a window of quiet ends, the text of the grid is handed to the client. Nothing is quoted in it,
so it can be read only if no value has a separator in it.

**Theorem (`handed_decodes`).** What is handed over is read back as the values of the cells, row by
row, exactly if no cell without a formula shows a separator. Such a cell comes from the file: a number
may be stored there with separators of thousands, and formulas read it, but it is no literal that
could be entered. So what is handed over is always read back if the cells that the file describes at
first are free of separators and the file is not changed by others.

What formula cells show, results and errors, has no separator in it (`Cell.Displays.isField`), and
entered literals have none either (`Csv.isField_literal`).
-/

namespace Spreadsheet

open Text

/-! ## Literals -/

namespace Literal

/-- The characters of literals. -/
def IsLiteralChar (c : Char) : Prop := c = '$' ∨ isDigit c = true ∨ c = '.' ∨ c = '%'

/-- A stripped literal has no other characters. -/
theorem isLiteralChar_of_isComplete {text : String} (hstrip : strip text = text)
    (h : isComplete text = true) : ∀ c ∈ text.toList, IsLiteralChar c := by
  obtain ⟨digits, whole, fraction, percent, hnumeral, hsplit⟩ :=
    exists_numeral_of_isComplete hstrip h
  have hrest : ∀ c ∈ dropOptional '$' text.toList, IsLiteralChar c := by
    intro c hc
    rw [hsplit] at hc
    rcases List.mem_append.1 hc with hc | hc
    · exact .inr ((hnumeral.digit_or_point c hc).imp_right .inl)
    · exact .inr (.inr (.inr (eq_of_mem_percentSign hc)))
  rcases dropOptional_cases '$' text.toList with heq | heq
  · rwa [heq] at hrest
  · rw [heq]
    exact List.forall_mem_cons.2 ⟨.inl rfl, hrest⟩

end Literal

/-! ## Texts without separators -/

namespace Csv

theorem isField_sentinel (state : ErrorState) : IsField state.sentinel := by
  cases state <;> decide

theorem isField_literal {text : String} (hstrip : strip text = text)
    (h : Literal.isComplete text = true) : IsField text := by
  have hnot : ∀ c, ¬ Literal.IsLiteralChar c → c ∉ text.toList := fun c hc hmem =>
    hc (Literal.isLiteralChar_of_isComplete hstrip h c hmem)
  exact ⟨hnot ',' (by unfold Literal.IsLiteralChar; decide),
    hnot '\n' (by unfold Literal.IsLiteralChar; decide)⟩

theorem isField_display (x : Float) : IsField (Number.display x) := by
  have hsign : ∀ (negative : Bool) (cs : List Char), ',' ∉ cs ∧ '\n' ∉ cs →
      ',' ∉ (if negative then ['-'] else []) ++ cs ∧
        '\n' ∉ (if negative then ['-'] else []) ++ cs := by
    intro negative cs hcs
    cases negative <;> simpa using hcs
  unfold IsField Number.display
  rw [String.toList_ofList]
  unfold Number.displayChars
  split
  · rename_i negative units _
    unfold Number.Hundredths.chars
    obtain ⟨whole, fraction, hnumeral⟩ :=
      Number.numeral_hundredths (Number.Hundredths.ofUnits negative units).count
    have hchars := And.intro (hnumeral.not_mem (c := ',') (by decide) (by decide))
      (hnumeral.not_mem (c := '\n') (by decide) (by decide))
    dsimp only
    split
    · exact hsign true _ hchars
    · exact hsign false _ hchars
  · decide
  · exact hsign _ _ (by decide)

end Csv

/-! ## Cells -/

namespace Cell

variable {c : Cell}

/-- The cell, if it has no formula, shows no separator. -/
def Separated (c : Cell) : Prop := c.formula = none → Csv.IsField c.value

theorem Displays.isField (h : c.Displays) (hf : c.formula ≠ none) : Csv.IsField c.value := by
  obtain ⟨formula, hformula⟩ := Option.ne_none_iff_exists'.1 hf
  obtain ⟨result, hcell, -⟩ := h formula hformula
  rw [hcell]
  cases result with
  | ok x => exact Csv.isField_display x
  | error e => exact Csv.isField_sentinel e.state

theorem Blank.isField (h : c.Blank) : Csv.IsField c.value := by
  rw [h.1]
  decide

theorem separated_enter (g : Grid) (a : Address) (text : String) :
    (g.enter a (strip text)).1.Separated := by
  intro hf
  have henters := g.enters_enter a (strip text)
  generalize (g.enter a (strip text)).1 = cell at henters hf ⊢
  cases henters with
  | formula result =>
    rw [formula_ofResult] at hf
    cases hf
  | empty => exact Csv.isField_sentinel .none
  | literal _ _ hcomplete => exact Csv.isField_literal (strip_strip text) hcomplete
  | invalid => exact Csv.isField_sentinel .error

theorem separated_opened (h : c.Separated) : (Session.opened c).1.Separated := by
  intro hf
  rw [Session.formula_opened] at hf
  rw [Session.opened_cell]
  split
  · exact Csv.isField_sentinel .none
  · exact h hf

/-- All that is done to cells keeps them free of separators. -/
theorem kept_separated :
    Kept fun c => c.Separated ∧ c.Marked ∧ c.formula ≠ some "" where
  empty := ⟨fun _ => Csv.isField_sentinel .none, marked_empty, nofun⟩
  entered g a text :=
    ⟨separated_enter g a text, Grid.marked_enter g a _, Grid.formula_enter g a _⟩
  ofResult {c formula} result hc hf := by
    refine ⟨fun hnone => ?_, marked_ofResult formula result, ?_⟩
    · rw [formula_ofResult] at hnone
      cases hnone
    · rw [formula_ofResult, ← hf]
      exact hc.2.2
  opened {c} hc := by
    refine ⟨separated_opened hc.1, Session.marked_opened hc.2.1, ?_⟩
    rw [Session.formula_opened]
    exact hc.2.2
  marked hc := hc.2.1
  formula_ne hc := hc.2.2

end Cell

/-! ## Sessions -/

namespace Session

variable {settings : Settings} {store : Store} {moves : List Move} {now : Nat} {data : String}

/-- In the end cells without a formula are free of separators, if those that the file describes at
first are. -/
theorem separated_run (hstore : store.Describes Cell.Separated)
    (hmoves : ∀ v ∈ moves, v.isOwn = true) :
    ((ofStore settings store).run moves).sheet.grid.All Cell.Separated := by
  have hfile : store.Describes fun c => c.Separated ∧ c.Marked ∧ c.formula ≠ some "" :=
    fun entries hload e he fields hfields => ⟨hstore entries hload e he fields hfields,
      Snapshot.marked_cellOfEntry fields, Snapshot.noEmptyFormula_cellOfEntry fields⟩
  have hholds := holds_run Cell.kept_separated settings hfile hmoves
  exact fun a c hc => (hholds.grid a c hc).1

/-- **What is handed over can be read**, unless a cell without a formula shows a separator, which it
does only if the file says so. -/
theorem handed_decodes
    (h : ((ofStore settings store).run moves).handed? (.fire now) = some data) :
    let g := ((ofStore settings store).run moves).sheet.grid
    data = g.csv ∧ (g.fields.length = g.rows ∧ ∀ row ∈ g.fields, row.length = g.columns) ∧
      (Csv.decode data = g.fields ↔ g.All Cell.Separated) ∧
      (store.Describes Cell.Separated → (∀ v ∈ moves, v.isOwn = true) →
        Csv.decode data = g.fields) := by
  intro g
  have hdisplays := displays_run settings store moves
  have hdecodes : Csv.decode data = g.fields ↔ g.All Cell.Separated := by
    rw [(of_handed? h).1, Grid.decode_csv_iff]
    refine forall_congr' fun a => forall_congr' fun c => forall_congr' fun hc => ?_
    refine ⟨fun hfield _ => hfield, fun hseparated => ?_⟩
    by_cases hf : c.formula = none
    · exact hseparated hf
    · rcases hdisplays a c hc with hshows | ⟨hblank, -⟩
      · exact hshows.isField hf
      · exact hblank.isField
  exact ⟨(of_handed? h).1, g.length_fields, hdecodes,
    fun hstore hmoves => hdecodes.2 (separated_run hstore hmoves)⟩

/-! ## Separators of thousands -/

/-- A file in which a number has a separator of thousands. -/
def storedThousand : Store :=
  (Store.ofPath "grid.json").holding
    (Json.object [(.whole "A1", contentJson "1,000" none)]).render.toUTF8.toList

/-- The sheet is loaded, and a save is asked for. -/
def thousandLoaded : List Move := [.call (some 0) .load, .call (some 0) .save]

/-- The number is handed over as it is stored, next to an empty cell. -/
theorem handed_thousandLoaded :
    ((ofStore twoCells storedThousand).run thousandLoaded).handed? (.fire 1000) =
      some "1,000," := by
  decide +kernel

/-- Three fields are read from the text of two cells. -/
theorem thousand_not_separated :
    ((ofStore twoCells storedThousand).run thousandLoaded).handed? (.fire 1000) =
        some "1,000," ∧
      Csv.decode "1,000," = [["1", "000", ""]] ∧
      ¬ ((ofStore twoCells storedThousand).run thousandLoaded).sheet.grid.All Cell.Separated := by
  have hdecode : Csv.decode "1,000," = [["1", "000", ""]] := by decide +kernel
  have hfields : ((ofStore twoCells storedThousand).run thousandLoaded).sheet.grid.fields =
      [["1,000", ""]] := by
    decide +kernel
  obtain ⟨-, -, hdecodes, -⟩ := handed_decodes handed_thousandLoaded
  refine ⟨handed_thousandLoaded, hdecode, fun hall => ?_⟩
  have heq := hdecodes.2 hall
  rw [hdecode, hfields] at heq
  exact absurd heq (by decide)

/-- Not all that is handed over can be read. -/
theorem handed_not_decoded :
    ¬ ∀ (settings : Settings) (store : Store) (moves : List Move) (now : Nat) (data : String),
      ((ofStore settings store).run moves).handed? (.fire now) = some data →
      Csv.decode data = ((ofStore settings store).run moves).sheet.grid.fields := by
  intro h
  have heq := h twoCells storedThousand thousandLoaded 1000 "1,000," handed_thousandLoaded
  have hne : Csv.decode "1,000," ≠
      ((ofStore twoCells storedThousand).run thousandLoaded).sheet.grid.fields := by
    decide +kernel
  exact hne heq

end Session

end Spreadsheet
