import Spreadsheet.Proofs.Recalculation.Sweep
import Spreadsheet.Proofs.Session.Run
import Spreadsheet.Proofs.Snapshot.Entries

/-!
# Sessions are consistent whenever nothing is focused

**Theorem (`consistent_run`).** After any calls in any order, with any file, each formula cell of a
session in which no cell is focused shows what its formula evaluates to on the grid as it is, with
no tokens kept.

The invariant (`Sound`) says this of unfocused sessions only: opening a cell clears an error, and a
commit to a cell while another one is focused is not carried on. Every way back to an unfocused
session is a load or a commit, and both sweep the sheet. A sweep that is left out because nothing
has changed since the one before is harmless, because the cells are marked (`Sheet.Sound.current`).
-/

namespace Spreadsheet

/-! ## Grids from files -/

theorem Settings.all_emptyGrid {p : Cell → Prop} (hp : p .empty) (settings : Settings) :
    settings.emptyGrid.All p := by
  intro a c hc
  rw [Grid.get?_empty hc]
  exact hp

theorem Settings.marked_emptyGrid (settings : Settings) : settings.emptyGrid.Marked :=
  settings.all_emptyGrid Cell.marked_empty

theorem Settings.current_emptyGrid (settings : Settings) : settings.emptyGrid.Current := by
  intro a c hc formula hf
  rw [Grid.get?_empty hc] at hf
  cases hf

namespace Session

variable {s : Session} {clock : Option Nat}

theorem marked_storedGrid (s : Session) (stored : Option (List (JsonText × Json))) :
    (s.storedGrid stored).1.Marked := by
  cases stored with
  | none => exact s.settings.marked_emptyGrid
  | some entries => exact Snapshot.marked_restore s.settings.marked_emptyGrid entries

/-! ## The invariant -/

/-- The sheet is sound, and its grid is current unless a cell is focused. -/
structure Sound (s : Session) : Prop where
  sheet : s.sheet.Sound
  current : s.editing = none → s.sheet.grid.Current

theorem sound_ofStore (settings : Settings) (store : Store) : (ofStore settings store).Sound :=
  ⟨Sheet.sound_ofGrid settings.marked_emptyGrid none, fun _ => settings.current_emptyGrid⟩

/-- Only the sheet and the focus count. -/
theorem Sound.of_eq {t : Session} (h : s.Sound) (hsheet : t.sheet = s.sheet)
    (hediting : t.editing = s.editing) : t.Sound :=
  ⟨hsheet ▸ h.sheet, fun hnone => hsheet ▸ h.current (hediting ▸ hnone)⟩

/-- With a cell focused only the sheet counts. -/
theorem sound_of_focused {e : Editing} (hsheet : s.sheet.Sound) (h : s.editing = some e) :
    s.Sound :=
  ⟨hsheet, fun hnone => by rw [h] at hnone; cases hnone⟩

theorem sound_trigger (h : s.Sound) : (s.trigger clock).session.Sound :=
  h.of_eq (sheet_trigger clock s) (editing_trigger clock s)

/-- After a sweep a session is sound if its sheet was. -/
theorem sound_sweep (h : s.sheet.Sound) : s.sweep.1.Sound := by
  cases hediting : s.editing with
  | none =>
    rw [sweep_of_not_focused hediting]
    exact ⟨h.reconcile.1, fun _ => h.reconcile.2⟩
  | some e =>
    rw [sweep_of_focused hediting]
    exact sound_of_focused h hediting

theorem Sound.commitAt (h : s.Sound) (clock : Option Nat) (a : Address) (text : String) :
    (s.commitAt clock a text).session.Sound := by
  have hentered : (s.entered a text).sheet.Sound := by
    rw [sheet_entered]
    exact h.sheet.commit a text
  refine (sound_sweep hentered).of_eq (sheet_commitAt clock s a text) ?_
  rw [editing_commitAt, editing_sweep, editing_entered]

theorem Sound.commit (h : s.Sound) (clock : Option Nat) (address text : Option String) :
    (s.commit clock address text).session.Sound := by
  rcases commit_cases clock s address text with ⟨e, -, heq⟩ | ⟨a, value, -, heq⟩
  · rw [heq]
    exact h
  · rw [heq]
    exact h.commitAt clock a value

theorem Sound.left (h : s.Sound) (clock : Option Nat) (a : Address) : (s.left clock a).Sound := by
  rcases left_cases clock s a with heq | ⟨e, -, heq⟩
  · rw [heq]
    exact h
  · rw [heq]
    exact h.commitAt clock e.address e.buffer

theorem marked_opened {c : Cell} (h : c.Marked) : (opened c).1.Marked := by
  rw [opened_cell]
  split
  · rfl
  · exact h

theorem formula_opened (c : Cell) : (opened c).1.formula = c.formula := by
  rw [opened_cell]
  split <;> rfl

/-- The cell at an address is marked, whether the address lies in the grid or not. -/
theorem marked_cellAt (h : s.sheet.grid.Marked) (a : Address) : (s.cellAt a).Marked :=
  holds_cellAt Cell.marked_empty (h a)

theorem Sound.openedSheet (h : s.Sound) (a : Address) : (s.openedSheet a).Sound := by
  unfold Session.openedSheet
  split
  · exact ⟨h.sheet.marked.set (marked_opened (marked_cellAt h.sheet.marked a)) a, h.sheet.swept⟩
  · exact h.sheet

theorem Sound.focusAt (h : s.Sound) (clock : Option Nat) (a : Address) :
    (s.focusAt clock a).session.Sound := by
  obtain ⟨hsheet, ⟨buffer, hediting⟩, -⟩ := focusAt_session clock s a
  refine sound_of_focused ?_ hediting
  rw [hsheet]
  exact (h.left clock a).openedSheet a

theorem Sound.focus (h : s.Sound) (clock : Option Nat) (address : String) :
    (s.focus clock address).session.Sound := by
  rcases focus_cases clock s address with heq | ⟨a, -, heq⟩
  · rw [heq]
    exact h
  · rw [heq]
    exact h.focusAt clock a

theorem Sound.edit (h : s.Sound) (clock : Option Nat) (address text : String) :
    (s.edit clock address text).session.Sound := by
  rcases edit_cases clock s address text with heq | ⟨a, -, t, e, ht, heq⟩
  · rw [heq]
    exact h
  · rw [heq]
    have hsheet : t.sheet.Sound := by
      rcases ht with ⟨-, rfl⟩ | ⟨-, rfl⟩
      · exact h.sheet
      · exact (h.focusAt clock a).sheet
    exact sound_of_focused hsheet rfl

theorem Sound.load (h : s.Sound) : s.load.session.Sound := by
  rcases load_cases s with ⟨heq, -⟩ | ⟨stored, -, -, hsheet, -⟩
  · rw [heq]
    exact h
  · have hswept := (Sheet.sound_ofGrid (s.marked_storedGrid stored) none).reconcile
    exact ⟨hsheet ▸ hswept.1, fun _ => hsheet ▸ hswept.2⟩

/-! ## Runs -/

theorem Sound.call (h : s.Sound) (clock : Option Nat) (c : Call) : (s.call clock c).Sound := by
  cases c with
  | load => exact h.load
  | focus address => exact h.focus clock address
  | edit address text => exact h.edit clock address text
  | commit address text => exact h.commit clock address text
  | clear address => exact h.commit clock (some address) (some "")
  | reconcile =>
    show s.reconcile.session.Sound
    rcases reconcile_cases s with heq | heq
    · rw [heq]
      exact h
    · rw [heq]
      exact sound_sweep h.sheet
  | save =>
    show (s.save clock).session.Sound
    rcases save_cases clock s with heq | heq
    · rw [heq]
      exact h
    · rw [heq]
      exact sound_trigger h
  | dispose => exact h.of_eq rfl rfl

theorem Sound.move (h : s.Sound) (v : Move) : (s.move v).Sound := by
  cases v with
  | call clock c => exact h.call clock c
  | fire now => exact h.of_eq rfl rfl
  | resume now number reply => exact h.of_eq rfl rfl
  | rewrite store => exact h.of_eq rfl rfl

theorem sound_run (settings : Settings) (store : Store) (moves : List Move) :
    ((ofStore settings store).run moves).Sound :=
  run_induction (sound_ofStore settings store) (fun _ v h => h.move v) moves

/-! ## Consistency -/

/-- Unless a cell is focused, each formula cell shows what its formula evaluates to on the grid with
no tokens: the number and no error, or the sentinel and the state of the failure. -/
def Consistent (s : Session) : Prop :=
  s.editing = none → ∀ a c formula, s.sheet.grid.get? a = some c → c.formula = some formula →
    match (s.sheet.grid.evaluateFormula formula (.cell a) []).1 with
    | .ok x => c.value = Number.display x ∧ c.error = .none
    | .error e => c.value = e.sentinel ∧ c.error = e.state

theorem Sound.consistent (h : s.Sound) : s.Consistent := by
  intro hnone a c formula hc hf
  have hshows := h.current hnone a c hc formula hf
  cases hresult : (s.sheet.grid.evaluateFormula formula (.cell a) []).1 with
  | ok x =>
    rw [hresult] at hshows
    rw [hshows]
    exact ⟨rfl, rfl⟩
  | error e =>
    rw [hresult] at hshows
    rw [hshows]
    exact ⟨rfl, rfl⟩

/-- **Sessions are consistent.** It does not matter which calls were made, in which order, whether
they failed, and what the file held. -/
theorem consistent_run (settings : Settings) (store : Store) (moves : List Move) :
    ((ofStore settings store).run moves).Consistent :=
  (sound_run settings store moves).consistent

end Session

end Spreadsheet
