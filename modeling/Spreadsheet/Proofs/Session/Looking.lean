import Spreadsheet.Proofs.Session.Entries
import Spreadsheet.Proofs.Session.Typing

/-!
# Looking at a cell changes nothing

A cell is looked at by focusing it and committing the buffer as it is. Focusing clears an error, and
the commit enters the text anew, evaluates it and carries what it shows on to other cells.

**Theorem (`looking_changes_nothing`).** In the end all cells are as they were before, and the file
holds the snapshot of the sheet, unless the cell shows the error of a text that was none: this error
is cleared for good.

The proof does not follow the commit. What is in the cell was entered, so the commit enters the same
formula or literal again; and the sheet is current before and after, so it is determined by its
formulas and literals.
-/

namespace Spreadsheet

namespace Session

variable {s : Session} {clock clock' : Option Nat} {a : Address} {address text : String}

/-- The commit of a cell that was focused, with the buffer as it is. -/
def look (clock clock' : Option Nat) (s : Session) (address : String) :
    Outcome (Except SessionError CommitResult) :=
  (s.focus clock address).session.commit clock' none none

/-! ## The cell is entered again -/

theorem get?_cellAt (h : s.locate address = .ok a) :
    s.sheet.grid.get? a = some (s.cellAt a) := by
  unfold locate at h
  split at h
  · cases hlocate : s.sheet.grid.locate address with
    | error e =>
      rw [hlocate] at h
      cases h
    | ok b =>
      rw [hlocate] at h
      obtain rfl := Except.ok.inj h
      obtain ⟨c, hc⟩ := Grid.get?_of_contains (Sheet.contains_of_locate hlocate).2
      rw [cellAt, hc, Option.getD_some]
  · cases h

/-- Opening a cell does nothing to the others. -/
theorem get?_openedSheet {b : Address} (hb : b ≠ a) :
    (s.openedSheet a).grid.get? b = s.sheet.grid.get? b := by
  unfold openedSheet
  split
  · exact Grid.get?_set_of_ne hb
  · rfl

/-- Where no cell is focused, the cell is opened, and the text in it is committed. -/
theorem look_eq (clock clock' : Option Nat) (hnone : s.editing = none)
    (hlocate : s.locate address = .ok a) :
    ∃ t : Session, t.sheet = s.openedSheet a ∧ t.editing = some ⟨a, (opened (s.cellAt a)).2⟩ ∧
      s.look clock clock' address =
        ⟨(t.commitAt clock' a (opened (s.cellAt a)).2).session,
          (t.commitAt clock' a (opened (s.cellAt a)).2).effects,
          .ok (t.commitAt clock' a (opened (s.cellAt a)).2).result⟩ := by
  have hleft : s.left clock a = s := by
    rw [left, leaveOther_of_none hnone]
  obtain ⟨hsheet, -, -, hloaded⟩ := focusAt_session clock s a
  obtain ⟨-, hediting⟩ := focusAt_buffer clock s a
  rw [hleft] at hsheet hloaded hediting
  rw [loaded_of_locate hlocate] at hloaded
  have hfocus : (s.focus clock address).session = (s.focusAt clock a).session := by
    unfold focus
    rw [hlocate]
  refine ⟨(s.focusAt clock a).session, hsheet, hediting, ?_⟩
  rw [look, hfocus, (typingEnds hediting).committed clock' none (target_of_editing hediting hloaded),
    commit_typed hediting hloaded]

/-- The formulas and literals are the same after the cell was committed as it is. -/
theorem sameInputs_look (he : s.Entered) (hnone : s.editing = none)
    (hlocate : s.locate address = .ok a)
    (hcell : (s.cellAt a).formula = none → (s.cellAt a).isError = false) :
    (s.look clock clock' address).session.sheet.grid.SameInputs s.sheet.grid := by
  obtain ⟨t, hsheet, -, hlook⟩ := look_eq clock clock' hnone hlocate
  have hget := get?_cellAt hlocate
  have ht : t.sheet.grid.Contains a := by
    have hsize := sameSize_openedSheet s a
    rw [hsheet]
    exact (Grid.contains_congr hsize a).2 (Grid.contains_of_get? hget)
  -- The sweep after the commit stores results only.
  have hcommit : (t.commitAt clock' a (opened (s.cellAt a)).2).session.sheet.grid.SameInputs
      (t.sheet.commit a (opened (s.cellAt a)).2).1.grid := by
    rw [sheet_commitAt, ← sheet_entered]
    exact (calculated_sweep _).sameInputs
  intro b
  rw [hlook, hcommit b, Sheet.grid_commit, Grid.input_commit ht]
  by_cases hb : b = a
  · rw [if_pos hb, hb, hget, Option.map_some, (entered_cellAt he.grid a).inputOfText hcell]
  · rw [if_neg hb, hsheet, get?_openedSheet hb]

/-- The sheet is current before and after, so the cells are the same too. -/
theorem get?_look (hs : s.Sound) (he : s.Entered) (hnone : s.editing = none)
    (hlocate : s.locate address = .ok a)
    (hcell : (s.cellAt a).formula = none → (s.cellAt a).isError = false)
    (clock clock' : Option Nat) :
    (s.look clock clock' address).session.editing = none ∧
      ∀ b, (s.look clock clock' address).session.sheet.grid.get? b = s.sheet.grid.get? b := by
  have hlooked : (s.look clock clock' address).session.Sound :=
    (hs.focus clock address).commit clock' none none
  have hediting : (s.look clock clock' address).session.editing = none := by
    obtain ⟨t, -, hediting, hlook⟩ := look_eq clock clock' hnone hlocate
    rw [hlook]
    dsimp only
    exact editing_commitAt_of_isFocused (isFocused_of_editing hediting)
  exact ⟨hediting, (hlooked.current hediting).get?_eq (hs.current hnone) hlooked.sheet.marked
    hs.sheet.marked (sameInputs_look he hnone hlocate hcell)⟩

/-! ## What is written -/

/-- A commit leaves the snapshot of the sheet in the file. -/
theorem store_commitAt (hwrite : writeFailed ∉ (s.commitAt clock a text).effects) :
    (s.commitAt clock a text).session.store.state =
      .file (s.commitAt clock a text).session.sheet.grid.snapshot.toJson.render.toUTF8.toList := by
  obtain ⟨store, hsave, hpersist⟩ := persist_of_written (s := (s.entered a text).sweep.1)
    fun hfailed => hwrite (mem_effects_commitAt hfailed)
  have hstore : (s.commitAt clock a text).session.store = store := by
    rw [session_commitAt, hpersist]
    split
    · exact store_trigger clock _
    · rfl
  rw [hstore, sheet_commitAt, Store.save_eq_ok hsave, Store.holding]

/-! ## Looking -/

/-- What is left of looking at a cell. -/
structure Looked (s : Session) (done : Outcome (Except SessionError CommitResult)) : Prop where
  result : ∃ r, done.result = .ok r
  editing : done.session.editing = none
  /-- Formulas, values and errors are the same. -/
  cells : ∀ b, done.session.sheet.grid.get? b = s.sheet.grid.get? b
  /-- If it can be written, the file holds the snapshot of the sheet. -/
  written : writeFailed ∉ done.effects → done.session.store.state =
    .file s.sheet.grid.snapshot.toJson.render.toUTF8.toList

theorem looked_look (hs : s.Sound) (he : s.Entered) (hnone : s.editing = none)
    (hlocate : s.locate address = .ok a)
    (hcell : (s.cellAt a).formula = none → (s.cellAt a).isError = false)
    (clock clock' : Option Nat) : s.Looked (s.look clock clock' address) := by
  obtain ⟨hediting, hcells⟩ := get?_look hs he hnone hlocate hcell clock clock'
  obtain ⟨t, hsheet, -, hlook⟩ := look_eq clock clock' hnone hlocate
  refine ⟨⟨_, congrArg Outcome.result hlook⟩, hediting, hcells, fun hwrite => ?_⟩
  rw [hlook] at hcells hwrite ⊢
  dsimp only at hcells hwrite ⊢
  have hsize := (sameSize_commitAt clock' t a (opened (s.cellAt a)).2).trans
    (hsheet ▸ sameSize_openedSheet s a)
  rw [store_commitAt hwrite, Grid.snapshot_congr hsize hcells]

/-- **Looking at a cell changes nothing.** It does not matter what was entered before, and whether
it could be written. -/
theorem looking_changes_nothing {settings : Settings} {store : Store} {moves : List Move}
    (hstore : store.load = .ok none) (hmoves : ∀ v ∈ moves, v.isOwn = true)
    (hnone : ((ofStore settings store).run moves).editing = none)
    (hlocate : ((ofStore settings store).run moves).locate address = .ok a)
    (hcell : (((ofStore settings store).run moves).cellAt a).formula = none →
      (((ofStore settings store).run moves).cellAt a).isError = false)
    (clock clock' : Option Nat) :
    ((ofStore settings store).run moves).Looked
      (((ofStore settings store).run moves).look clock clock' address) :=
  looked_look (sound_run settings store moves) (entered_run hstore hmoves) hnone hlocate hcell
    clock clock'

/-- A new sheet is loaded, and a formula that has no value is entered. -/
def powerEntered : List Move :=
  [.call (some 0) .load, .call (some 0) (.commit (some "A1") (some " =5^2 "))]

def powerSheet : Session := (ofStore oneCell (Store.ofPath "grid.json")).run powerEntered

/-- The formula is looked at: its error is cleared and shown again, and the file is written. -/
theorem looked_power :
    (Store.ofPath "grid.json").load = .ok none ∧
      (∀ v ∈ powerEntered, v.isOwn = true) ∧
      powerSheet.editing = none ∧
      powerSheet.locate "A1" = .ok ⟨0, 0⟩ ∧
      powerSheet.cellAt ⟨0, 0⟩ = .ofError .error (some "=5^2") ∧
      powerSheet.Looked (powerSheet.look (some 0) (some 0) "A1") ∧
      writeFailed ∉ (powerSheet.look (some 0) (some 0) "A1").effects := by
  have hstore : (Store.ofPath "grid.json").load = .ok none := rfl
  have hmoves : ∀ v ∈ powerEntered, v.isOwn = true := by decide
  have hnone : powerSheet.editing = none := by decide +kernel
  have hlocate : powerSheet.locate "A1" = .ok ⟨0, 0⟩ := by decide +kernel
  have hcell : powerSheet.cellAt ⟨0, 0⟩ = .ofError .error (some "=5^2") := by decide +kernel
  have hliteral : (powerSheet.cellAt ⟨0, 0⟩).formula = none →
      (powerSheet.cellAt ⟨0, 0⟩).isError = false := by
    intro hf
    rw [hcell] at hf
    cases hf
  have hwritten : writeFailed ∉ (powerSheet.look (some 0) (some 0) "A1").effects := by
    decide +kernel
  exact ⟨hstore, hmoves, hnone, hlocate, hcell,
    looking_changes_nothing hstore hmoves hnone hlocate hliteral (some 0) (some 0), hwritten⟩

end Session

end Spreadsheet
