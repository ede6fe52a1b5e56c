import Spreadsheet.Proofs.Recalculation.Shown
import Spreadsheet.Proofs.Session.Displays
import Spreadsheet.Proofs.Session.Entries

/-!
# Each cell is of one kind

Value, formula and error state of a cell are kept apart, but not all that they could be together
occurs. There are six kinds of cells (`Cell.Kind`).

**Theorem (`wellFormed_run`).** In a session whose file was never changed by others each cell is of
exactly one kind. Only the focused cell can be blanked, and the value of each cell tells its error
state. So the grid has errors where a sentinel is shown, and nowhere else.

What is in the cells was entered (`entered_run`), and what formula cells show are results
(`displays_run`). Together these say of which kind a cell is (`Cell.Entered.exists_is`).
-/

namespace Spreadsheet

open Text

/-! ## Kinds -/

namespace Cell

/-- What a cell can be. -/
inductive Kind where
  | empty
  | literal
  /-- The cell shows the error of a text that was neither a formula nor a literal. -/
  | literalError
  /-- The cell shows a number. -/
  | computed
  /-- The cell shows the error of its formula. -/
  | formulaError
  /-- The cell has a formula and shows nothing. -/
  | blanked
  deriving DecidableEq, Repr

/-- The cell has a formula, a stripped text that starts with an equals sign. -/
def HasFormula (c : Cell) : Prop :=
  ∃ formula, c.formula = some formula ∧ strip formula = formula ∧ Formula.isFormula formula = true

/-- The cell shows the sentinel of an error. -/
def ShowsSentinel (c : Cell) : Prop :=
  c.value = ErrorState.error.sentinel ∨ c.value = ErrorState.circular.sentinel

/-- The cell is of a kind. -/
def Is (c : Cell) : Kind → Prop
  | .empty => c.value = "" ∧ c.formula = none ∧ c.error = .none
  | .literal => c.value ≠ "" ∧ strip c.value = c.value ∧ Literal.isComplete c.value = true ∧
      c.formula = none ∧ c.error = .none
  | .literalError => c.value = ErrorState.error.sentinel ∧ c.formula = none ∧ c.error = .error
  | .computed => c.HasFormula ∧
      (∃ x, Number.isFinite x = true ∧ c.value = Number.display x) ∧ c.error = .none
  | .formulaError => c.HasFormula ∧ c.value = c.error.sentinel ∧ c.error ≠ .none
  | .blanked => c.HasFormula ∧ c.value = "" ∧ c.error = .none

variable {c : Cell} {k k' : Kind}

/-- The kind that formula, error state and value tell. -/
def kind (c : Cell) : Kind :=
  match c.formula, c.error with
  | none, .none => if c.value = "" then .empty else .literal
  | none, _ => .literalError
  | some _, .none => if c.value = "" then .blanked else .computed
  | some _, _ => .formulaError

theorem Is.kind_eq (h : c.Is k) : c.kind = k := by
  unfold kind
  cases k with
  | empty =>
    obtain ⟨hvalue, hformula, herror⟩ := h
    rw [hformula, herror]
    exact if_pos hvalue
  | literal =>
    obtain ⟨hvalue, -, -, hformula, herror⟩ := h
    rw [hformula, herror]
    exact if_neg hvalue
  | literalError =>
    obtain ⟨-, hformula, herror⟩ := h
    rw [hformula, herror]
  | computed =>
    obtain ⟨⟨formula, hformula, -⟩, ⟨x, -, hvalue⟩, herror⟩ := h
    rw [hformula, herror]
    exact if_neg (hvalue ▸ Number.display_ne_empty x)
  | formulaError =>
    obtain ⟨⟨formula, hformula, -⟩, -, herror⟩ := h
    rw [hformula]
    cases hstate : c.error with
    | none => exact absurd hstate herror
    | error => rfl
    | circular => rfl
  | blanked =>
    obtain ⟨⟨formula, hformula, -⟩, hvalue, herror⟩ := h
    rw [hformula, herror]
    exact if_pos hvalue

/-- No cell is of two kinds. -/
theorem Is.unique (h : c.Is k) (h' : c.Is k') : k = k' := h.kind_eq.symm.trans h'.kind_eq

/-- A cell that shows a result of its formula shows a number or an error. -/
theorem Displays.is_computed_or_formulaError (h : c.Displays) (hformula : c.HasFormula) :
    c.Is .computed ∨ c.Is .formulaError := by
  obtain ⟨formula, hf, -⟩ := id hformula
  obtain ⟨result, hcell, hfinite⟩ := h formula hf
  cases result with
  | ok x => exact .inl ⟨hformula, ⟨x, hfinite x rfl, congrArg value hcell⟩, congrArg error hcell⟩
  | error e =>
    have herror : c.error = e.state := congrArg error hcell
    have hvalue : c.value = e.state.sentinel := congrArg value hcell
    have hstate : e.state ≠ .none := by cases e <;> simp [FormulaError.state]
    exact .inr ⟨hformula, herror ▸ hvalue, herror ▸ hstate⟩

/-- A cell in which all was entered, and that shows a result or nothing, is of a kind. -/
theorem Entered.exists_is (h : c.Entered) (hshows : c.Displays ∨ c.Blank) : ∃ k, c.Is k := by
  cases hf : c.formula with
  | some formula =>
    have hformula : c.HasFormula := ⟨formula, hf, h.of_formula hf⟩
    rcases hshows with hdisplays | ⟨hvalue, herror⟩
    · rcases hdisplays.is_computed_or_formulaError hformula with hkind | hkind
      · exact ⟨.computed, hkind⟩
      · exact ⟨.formulaError, hkind⟩
    · exact ⟨.blanked, hformula, hvalue, herror⟩
  | none =>
    cases h with
    | empty => exact ⟨.empty, rfl, rfl, rfl⟩
    | @literal text hstrip hcomplete =>
      have hne : text ≠ "" := by
        rintro rfl
        cases hcomplete
      exact ⟨.literal, hne, hstrip, hcomplete, rfl, rfl⟩
    | invalid => exact ⟨.literalError, rfl, rfl, rfl⟩
    | formula result _ _ =>
      rw [formula_ofResult] at hf
      cases hf
    | cleared _ _ => cases hf

/-- A blanked cell shows no result. -/
theorem Is.not_displays (h : c.Is .blanked) : ¬ c.Displays := by
  intro hdisplays
  rcases hdisplays.is_computed_or_formulaError h.1 with hkind | hkind
  · cases h.unique hkind
  · cases h.unique hkind

/-- Where the value tells the error state, the errors are what shows a sentinel. -/
theorem Marked.isError_iff (h : c.Marked) : c.isError = true ↔ c.ShowsSentinel := by
  rw [h.isError, ErrorState.ofSentinel]
  constructor
  · intro herror
    split at herror
    · rename_i hvalue
      exact .inl hvalue
    · split at herror
      · rename_i hvalue
        exact .inr hvalue
      · cases herror
  · rintro (hvalue | hvalue) <;> rw [hvalue] <;> rfl

end Cell

/-! ## Sessions -/

namespace Session

/-- All cells are well formed. -/
structure WellFormed (s : Session) : Prop where
  kind : ∀ a c, s.sheet.grid.get? a = some c → ∃! k, c.Is k
  /-- Only the focused cell can be blanked. -/
  blanked : ∀ a c, s.sheet.grid.get? a = some c → c.Is .blanked → s.isFocused a = true
  /-- The value tells the error state. -/
  error : ∀ a c, s.sheet.grid.get? a = some c → c.error = ErrorState.ofSentinel c.value
  /-- The cells in error are those that show a sentinel. -/
  isError : ∀ a c, s.sheet.grid.get? a = some c → (c.isError = true ↔ c.ShowsSentinel)
  hasErrors : s.sheet.grid.hasErrors = true ↔
    ∃ a c, s.sheet.grid.get? a = some c ∧ c.ShowsSentinel

/-- **The cells of a session are well formed.** It does not matter what was done, as long as the file
is the session's own. -/
theorem wellFormed_run (settings : Settings) {store : Store} {moves : List Move}
    (hstore : store.load = .ok none) (hmoves : ∀ v ∈ moves, v.isOwn = true) :
    ((ofStore settings store).run moves).WellFormed := by
  have hsound := sound_run settings store moves
  have hentered : ((ofStore settings store).run moves).Entered := entered_run hstore hmoves
  have hdisplays := displays_run settings store moves
  generalize (ofStore settings store).run moves = s at hsound hentered hdisplays
  have hmarked : ∀ a c, s.sheet.grid.get? a = some c → c.Marked := hsound.sheet.marked
  refine ⟨fun a c hc => ?_, fun a c hc hblanked => ?_, hmarked,
    fun a c hc => (hmarked a c hc).isError_iff, ?_⟩
  · obtain ⟨k, hk⟩ := (hentered.grid a c hc).exists_is ((hdisplays a c hc).imp_right And.left)
    exact ⟨k, hk, fun k' hk' => hk'.unique hk⟩
  · rcases hdisplays a c hc with hshows | ⟨-, hfocused⟩
    · exact absurd hshows hblanked.not_displays
    · exact hfocused
  · rw [Grid.hasErrors_iff]
    constructor
    · rintro ⟨a, c, hc, herror⟩
      exact ⟨a, c, hc, (hmarked a c hc).isError_iff.1 herror⟩
    · rintro ⟨a, c, hc, hshows⟩
      exact ⟨a, c, hc, (hmarked a c hc).isError_iff.2 hshows⟩

/-- A new sheet is loaded, a formula that has no value is entered, and its cell is focused. -/
def powerFocused : List Move :=
  [.call (some 0) .load, .call (some 0) (.commit (some "A1") (some "=5^2")),
    .call (some 0) (.focus "A1")]

/-- The cell of the formula is blanked then. -/
theorem wellFormed_powerFocused :
    (Store.ofPath "grid.json").load = .ok none ∧
      (∀ v ∈ powerFocused, v.isOwn = true) ∧
      ((ofStore oneCell (Store.ofPath "grid.json")).run powerFocused).sheet.grid.get? ⟨0, 0⟩ =
        some ⟨"", some "=5^2", .none⟩ ∧
      ((ofStore oneCell (Store.ofPath "grid.json")).run powerFocused).WellFormed := by
  have hstore : (Store.ofPath "grid.json").load = .ok none := rfl
  have hmoves : ∀ v ∈ powerFocused, v.isOwn = true := by decide
  exact ⟨hstore, hmoves, by decide +kernel, wellFormed_run oneCell hstore hmoves⟩

end Session

end Spreadsheet
