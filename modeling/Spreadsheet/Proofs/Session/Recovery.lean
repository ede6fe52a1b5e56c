import Spreadsheet.Proofs.Session.Pending
import Spreadsheet.Proofs.Sheet.History
import Spreadsheet.Proofs.Store.Restoring

/-!
# What was entered can be recovered from the file

A session may end at any moment, and a new one loads the file that it left.

**Theorem (`recovered_run`).** After any calls in any order, from any file that can be loaded, as long
as no write of the file fails: a new session with the same settings and the same file loads a grid with
the formulas and the literals of the live one. Unless a cell is focused, it is the same grid.

The invariant (`Recoverable`) says that the file holds the formulas and literals of the sheet. A call
that enters something writes the file at once (`recoverable_persist`), and a sweep changes nothing
that is entered. So the file need not hold the results that are shown; the sweep after loading gives
them anew. That the live grid shows the same results is said of unfocused sessions only, because
no sweep is made while a cell is focused.
-/

namespace Spreadsheet

open Text

theorem Settings.noEmptyFormula_emptyGrid (settings : Settings) :
    settings.emptyGrid.NoEmptyFormula :=
  Grid.noEmptyFormula_iff.2 (settings.all_emptyGrid nofun)

namespace Session

variable {s t : Session} {clock : Option Nat} {a : Address} {text : String}

/-! ## Writes that fail -/

/-- The notice that the file could not be written. -/
def writeFailed : Effect := .notify (.error "Unable to save changes locally")

/-- What can be seen of a call. -/
def effectsOf (clock : Option Nat) (s : Session) : Call → List Effect
  | .load => s.load.effects
  | .focus address => (s.focus clock address).effects
  | .edit address text => (s.edit clock address text).effects
  | .commit address text => (s.commit clock address text).effects
  | .clear address => (s.clear clock address).effects
  | .reconcile => s.reconcile.effects
  | .save => (s.save clock).effects
  | .dispose => []

/-- A move of the session itself in which no write of the file fails. -/
def Undisturbed (s : Session) : Move → Prop
  | .call clock c => writeFailed ∉ s.effectsOf clock c
  | .fire _ | .resume .. => True
  | .rewrite _ => False

instance (s : Session) : (v : Move) → Decidable (s.Undisturbed v)
  | .call clock c => inferInstanceAs (Decidable (writeFailed ∉ s.effectsOf clock c))
  | .fire _ | .resume .. => inferInstanceAs (Decidable True)
  | .rewrite _ => inferInstanceAs (Decidable False)

/-- All moves are the session's own, and no write of the file fails. -/
def RunsUndisturbed : Session → List Move → Prop
  | _, [] => True
  | s, v :: moves => s.Undisturbed v ∧ RunsUndisturbed (s.move v) moves

/-! ## What stays as it is -/

/-- A sweep at most stores results. -/
theorem calculated_sweep (s : Session) : s.sheet.grid.Calculated s.sweep.1.sheet.grid := by
  cases h : s.editing with
  | none =>
    rw [sweep_of_not_focused h]
    exact s.sheet.calculated_reconcile
  | some e =>
    rw [sweep_of_focused h]
    exact .refl

theorem sameSize_commitAt (clock : Option Nat) (s : Session) (a : Address) (text : String) :
    (s.commitAt clock a text).session.sheet.grid.SameSize s.sheet.grid := by
  rw [sheet_commitAt]
  refine (calculated_sweep _).sameSize.trans ?_
  rw [sheet_entered]
  exact s.sheet.sameSize_commit a text

theorem sameSize_left (clock : Option Nat) (s : Session) (a : Address) :
    (s.left clock a).sheet.grid.SameSize s.sheet.grid := by
  rcases left_cases clock s a with heq | ⟨e, -, heq⟩
  · rw [heq]
    exact .refl _
  · rw [heq]
    exact sameSize_commitAt clock s e.address e.buffer

theorem sameSize_openedSheet (s : Session) (a : Address) :
    (s.openedSheet a).grid.SameSize s.sheet.grid := by
  unfold openedSheet
  split
  · exact Grid.sameSize_set _ a _
  · exact .refl _

theorem sameSize_storedGrid (s : Session) (stored : Option (List (JsonText × Json))) :
    (s.storedGrid stored).1.SameSize s.settings.emptyGrid := by
  cases stored with
  | none => exact .refl _
  | some entries => exact Snapshot.sameSize_restore _ entries

/-- The grid that is restored depends on nothing but the settings. -/
theorem storedGrid_congr (h : t.settings = s.settings) (stored : Option (List (JsonText × Json))) :
    (t.storedGrid stored).1 = (s.storedGrid stored).1 := by
  unfold storedGrid
  rw [h]
  cases stored <;> rfl

/-! ## The invariant -/

/-- The grid has the size that was set, and a snapshot keeps all of it. -/
structure Fits (s : Session) : Prop where
  sized : s.sheet.grid.SameSize s.settings.emptyGrid
  storable : s.sheet.grid.Storable

/-- The file holds the formulas and the literals of the sheet. -/
structure Recoverable (s : Session) : Prop extends s.Fits where
  stored : ∃ stored, s.store.load = .ok stored ∧
    (s.storedGrid stored).1.SameInputs s.sheet.grid

theorem Fits.of_eq (h : s.Fits) (hsettings : t.settings = s.settings) (hsheet : t.sheet = s.sheet) :
    t.Fits := by
  refine ⟨?_, ?_⟩
  · rw [hsheet, hsettings]
    exact h.sized
  · rw [hsheet]
    exact h.storable

theorem Fits.of_calculated (h : s.Fits) (hsettings : t.settings = s.settings)
    (hsheet : s.sheet.grid.Calculated t.sheet.grid) : t.Fits := by
  refine ⟨?_, h.storable.of_calculated hsheet⟩
  rw [hsettings]
  exact hsheet.sameSize.trans h.sized

theorem Fits.sweep (h : s.Fits) : s.sweep.1.Fits :=
  h.of_calculated (settings_sweep s) (calculated_sweep s)

theorem Fits.entered (h : s.Fits) (a : Address) (text : String) : (s.entered a text).Fits := by
  refine ⟨?_, ?_⟩
  · rw [sheet_entered, settings_entered]
    exact (s.sheet.sameSize_commit a text).trans h.sized
  · rw [sheet_entered, Sheet.grid_commit]
    exact h.storable.commit s.sheet.depthLimit a text

/-- The sheet may store results, as long as settings and file stay as they are. -/
theorem Recoverable.of_calculated (h : s.Recoverable) (hsettings : t.settings = s.settings)
    (hstore : t.store = s.store) (hsheet : s.sheet.grid.Calculated t.sheet.grid) :
    t.Recoverable := by
  obtain ⟨stored, hload, hinputs⟩ := h.stored
  refine ⟨h.toFits.of_calculated hsettings hsheet, stored, ?_, ?_⟩
  · rw [hstore, hload]
  · rw [storedGrid_congr hsettings]
    exact hinputs.trans hsheet.sameInputs.symm

theorem Recoverable.of_eq (h : s.Recoverable) (hsettings : t.settings = s.settings)
    (hstore : t.store = s.store) (hsheet : t.sheet = s.sheet) : t.Recoverable :=
  h.of_calculated hsettings hstore (hsheet ▸ .refl)

/-- A write that does not fail puts the snapshot into the file. -/
theorem persist_of_written (hwrite : writeFailed ∉ s.persist.2) :
    ∃ store, s.store.save s.sheet.grid.snapshot.toJson = .ok store ∧
      s.persist.1 = { s with store := store } := by
  unfold persist at hwrite ⊢
  cases hsave : s.store.save s.sheet.grid.snapshot.toJson with
  | ok store => exact ⟨store, rfl, rfl⟩
  | error e =>
    rw [hsave] at hwrite
    exact absurd List.mem_cons_self hwrite

/-- **What is written can be recovered.** -/
theorem recoverable_persist (h : s.Fits) (hwrite : writeFailed ∉ s.persist.2) :
    s.persist.1.Recoverable := by
  obtain ⟨store, hsave, hpersist⟩ := persist_of_written hwrite
  have hload := Store.load_save hsave
  rw [hpersist]
  refine ⟨h.of_eq rfl rfl, some (s.sheet.grid.entries.map Snapshot.entryOf), hload, fun a => ?_⟩
  have hsize : s.settings.emptyGrid.SameSize s.sheet.grid := ⟨h.sized.1.symm, h.sized.2.symm⟩
  exact congrArg _ (h.storable.get?_restore_snapshot hsize a)

/-! ## Commits and focus -/

theorem mem_effects_commitAt {e : Effect}
    (h : e ∈ (s.entered a text).sweep.1.persist.2) : e ∈ (s.commitAt clock a text).effects := by
  have hsheet := sheet_leave s a
  unfold commitAt
  unfold entered at h
  generalize s.leave a = t at h ⊢
  dsimp only at h ⊢
  generalize t.sheet.commit a text = committed at h ⊢
  obtain ⟨sheet, result⟩ := committed
  dsimp only at h ⊢
  generalize sweep _ = swept at h ⊢
  obtain ⟨u, sweepResult⟩ := swept
  dsimp only at h ⊢
  generalize persist u = written at h ⊢
  obtain ⟨u', effects⟩ := written
  dsimp only at h ⊢
  cases result.changed || sweepResult.changed <;> simp [h]

theorem recoverable_commitAt (h : s.Fits)
    (hwrite : writeFailed ∉ (s.commitAt clock a text).effects) :
    (s.commitAt clock a text).session.Recoverable := by
  have hpersist := recoverable_persist (h.entered a text).sweep fun hfailed =>
    hwrite (mem_effects_commitAt hfailed)
  rw [session_commitAt]
  split
  · exact hpersist.of_eq (settings_trigger clock _) (store_trigger clock _) (sheet_trigger clock _)
  · exact hpersist

theorem Recoverable.commit (h : s.Recoverable) {address text : Option String}
    (hwrite : writeFailed ∉ (s.commit clock address text).effects) :
    (s.commit clock address text).session.Recoverable := by
  unfold Session.commit at hwrite ⊢
  cases htarget : s.target address with
  | error e => exact h
  | ok a =>
    rw [htarget] at hwrite
    dsimp only at hwrite ⊢
    exact recoverable_commitAt h.toFits hwrite

theorem Recoverable.left (h : s.Recoverable) (hwrite : writeFailed ∉ (s.leaveOther clock a).2) :
    (s.left clock a).Recoverable := by
  unfold Session.left
  cases hediting : s.editing with
  | none =>
    rw [leaveOther_of_none hediting]
    exact h
  | some e =>
    by_cases haddress : e.address = a
    · rw [leaveOther_of_isFocused (haddress ▸ isFocused_of_editing hediting)]
      exact h
    · rw [leaveOther_of_ne hediting haddress] at hwrite ⊢
      dsimp only at hwrite ⊢
      exact recoverable_commitAt h.toFits hwrite

/-- Clearing an error of the cell that is opened leaves a grid that fits. -/
theorem Fits.opened (h : s.Fits) (a : Address) :
    Fits { s with
      sheet := { s.sheet with grid := s.sheet.grid.set a (opened (s.cellAt a)).1 } } := by
  have hformula : (s.cellAt a).formula ≠ some "" :=
    holds_cellAt (p := fun c => c.formula ≠ some "") nofun fun _ => h.storable.formulas.formula
  have hmarked := marked_opened (marked_cellAt h.storable.marked a)
  rw [← formula_opened] at hformula
  exact ⟨(Grid.sameSize_set _ a _).trans h.sized, h.storable.set hmarked hformula a⟩

/-- The cell focused before is committed, and the file is written again if an error is cleared. -/
theorem Recoverable.focusAt (h : s.Recoverable)
    (hwrite : writeFailed ∉ (s.focusAt clock a).effects) :
    (s.focusAt clock a).session.Recoverable := by
  have hleft : writeFailed ∉ (s.leaveOther clock a).2 → (s.left clock a).Recoverable := h.left
  unfold Session.focusAt at hwrite ⊢
  unfold Session.left at hleft
  generalize s.leaveOther clock a = before at hwrite hleft ⊢
  obtain ⟨t, left⟩ := before
  dsimp only at hwrite hleft ⊢
  rw [List.mem_append, not_or] at hwrite
  have ht : t.Recoverable := hleft hwrite.1
  cases herror : (t.cellAt a).isError with
  | true =>
    rw [herror, if_pos rfl] at hwrite
    exact (recoverable_persist (ht.toFits.opened a) hwrite.2).of_eq rfl rfl rfl
  | false => exact ht.of_eq rfl rfl rfl

theorem Recoverable.focus (h : s.Recoverable) {address : String}
    (hwrite : writeFailed ∉ (s.focus clock address).effects) :
    (s.focus clock address).session.Recoverable := by
  unfold Session.focus at hwrite ⊢
  cases hlocate : s.locate address with
  | error e => exact h
  | ok a =>
    rw [hlocate] at hwrite
    exact h.focusAt hwrite

theorem Recoverable.edit (h : s.Recoverable) {address text : String}
    (hwrite : writeFailed ∉ (s.edit clock address text).effects) :
    (s.edit clock address text).session.Recoverable := by
  cases hlocate : s.locate address with
  | error e =>
    rw [edit_of_error hlocate]
    exact h
  | ok a =>
    cases hfocused : s.isFocused a with
    | true =>
      rw [edit_of_focused hlocate hfocused]
      dsimp only
      split
      · exact h.of_eq rfl rfl rfl
      · exact h
    | false =>
      rw [edit_of_not_focused hlocate hfocused] at hwrite ⊢
      dsimp only at hwrite ⊢
      split
      · exact (h.focusAt hwrite).of_eq rfl rfl rfl
      · exact h.focusAt hwrite

/-! ## Loading -/

/-- The grid that is restored fits, whatever the file holds. -/
theorem fits_storedGrid (hrows : s.settings.rows < Address.rowBound)
    (stored : Option (List (JsonText × Json))) :
    Fits { s with sheet := .ofGrid (s.storedGrid stored).1 none } := by
  have hsized := s.sameSize_storedGrid stored
  have hformulas : (s.storedGrid stored).1.NoEmptyFormula := by
    cases stored with
    | none => exact s.settings.noEmptyFormula_emptyGrid
    | some entries =>
      exact Snapshot.noEmptyFormula_restore s.settings.noEmptyFormula_emptyGrid entries
  have hrowsRestored : (s.storedGrid stored).1.rows < Address.rowBound := by
    rw [hsized.1]
    exact hrows
  exact ⟨hsized, s.marked_storedGrid stored, hformulas, hrowsRestored⟩

/-- After it was loaded, a sheet is recoverable. -/
theorem recoverable_load (hrows : s.settings.rows < Address.rowBound)
    {stored : Option (List (JsonText × Json))} (hload : s.store.load = .ok stored)
    (hwrite : writeFailed ∉ s.load.effects) : s.load.session.Recoverable := by
  have hfits := fits_storedGrid hrows stored
  have hgrid : (s.storedGrid stored).1.Calculated
      (Sheet.ofGrid (s.storedGrid stored).1 none).reconcile.1.grid :=
    (Sheet.ofGrid (s.storedGrid stored).1 none).calculated_reconcile
  unfold Session.load at hwrite ⊢
  rw [hload] at hwrite ⊢
  dsimp only at hwrite ⊢
  generalize hswept : (Sheet.ofGrid (s.storedGrid stored).1 none).reconcile = swept
    at hwrite hgrid ⊢
  obtain ⟨sheet, result⟩ := swept
  dsimp only at hwrite hgrid ⊢
  have ht : Fits { s with sheet := sheet, loaded := true, editing := none } :=
    hfits.of_calculated rfl hgrid
  cases hchanged : result.changed with
  | true =>
    rw [hchanged, if_pos rfl] at hwrite
    refine recoverable_persist ht ?_
    intro hfailed
    exact hwrite (List.mem_append_right _ hfailed)
  | false => exact ⟨ht, stored, hload, hgrid.sameInputs.symm⟩

/-! ## Runs -/

theorem Recoverable.call (h : s.Recoverable) {c : Call}
    (hwrite : writeFailed ∉ s.effectsOf clock c) : (s.call clock c).Recoverable := by
  cases c with
  | load =>
    obtain ⟨stored, hload, -⟩ := h.stored
    have hrows : s.settings.rows < Address.rowBound := by
      have hlive := h.storable.rows_lt
      rw [h.sized.1] at hlive
      exact hlive
    exact recoverable_load hrows hload hwrite
  | focus address => exact h.focus hwrite
  | edit address text => exact h.edit hwrite
  | commit address text => exact h.commit hwrite
  | clear address => exact h.commit hwrite
  | reconcile =>
    show s.reconcile.session.Recoverable
    rcases reconcile_cases s with heq | heq
    · rw [heq]
      exact h
    · rw [heq]
      exact h.of_calculated (settings_sweep s) (store_sweep s) (calculated_sweep s)
  | save =>
    show (s.save clock).session.Recoverable
    rcases save_cases clock s with heq | heq
    · rw [heq]
      exact h
    · rw [heq]
      exact h.of_eq (settings_trigger clock s) (store_trigger clock s) (sheet_trigger clock s)
  | dispose => exact h.of_eq rfl rfl rfl

theorem Recoverable.move (h : s.Recoverable) {v : Move} (hv : s.Undisturbed v) :
    (s.move v).Recoverable := by
  cases v with
  | call clock c => exact h.call hv
  | fire now => exact h.of_eq rfl rfl rfl
  | resume now number reply => exact h.of_eq rfl rfl rfl
  | rewrite store => exact hv.elim

theorem Recoverable.run (h : s.Recoverable) {moves : List Move}
    (hmoves : s.RunsUndisturbed moves) : (s.run moves).Recoverable := by
  induction moves generalizing s with
  | nil => exact h
  | cons v moves ih => exact ih (h.move hmoves.1) hmoves.2

/-! ## Before the sheet is loaded -/

/-- Nothing was done yet with the file. -/
structure Untouched (settings : Settings) (store : Store) (s : Session) : Prop where
  settings_eq : s.settings = settings
  store_eq : s.store = store
  not_loaded : s.loaded = false

variable {settings : Settings} {store : Store}

theorem locate_of_not_loaded (h : s.loaded = false) (address : String) :
    s.locate address = .error .notLoaded := by
  simp [Session.locate, h]

theorem target_of_not_loaded (h : s.loaded = false) (address : Option String) :
    s.target address = .error .notLoaded := by
  cases address with
  | none => simp [target, h]
  | some text => exact locate_of_not_loaded h text

/-- Before the sheet is loaded, all calls but loading and disposing are refused. -/
theorem Untouched.call (h : s.Untouched settings store) {c : Call} (hc : c ≠ .load) :
    (s.call clock c).Untouched settings store := by
  have hlocate := locate_of_not_loaded h.not_loaded
  have htarget := target_of_not_loaded h.not_loaded
  cases c with
  | load => exact absurd rfl hc
  | focus address => simpa [Session.call, Session.focus, hlocate, refuse] using h
  | edit address text => simpa [Session.call, Session.edit, hlocate, refuse] using h
  | commit address text => simpa [Session.call, Session.commit, htarget, refuse] using h
  | clear address => simpa [Session.call, clear, Session.commit, htarget, refuse] using h
  | reconcile => simpa [Session.call, reconcile, h.not_loaded, refuse] using h
  | save => simpa [Session.call, save, h.not_loaded, refuse] using h
  | dispose => exact ⟨h.settings_eq, h.store_eq, rfl⟩

theorem Untouched.move (h : s.Untouched settings store) {v : Move} (hv : s.Undisturbed v)
    (hload : ∀ clock, v ≠ .call clock .load) : (s.move v).Untouched settings store := by
  cases v with
  | call clock c =>
    refine h.call ?_
    rintro rfl
    exact hload clock rfl
  | fire now => exact ⟨h.settings_eq, h.store_eq, h.not_loaded⟩
  | resume now number reply => exact ⟨h.settings_eq, h.store_eq, h.not_loaded⟩
  | rewrite store => exact hv.elim

/-- From the first time on that the sheet is loaded, it is recoverable. -/
theorem Untouched.recoverable_run (h : s.Untouched settings store)
    (hrows : settings.rows < Address.rowBound)
    {stored : Option (List (JsonText × Json))} (hstore : store.load = .ok stored)
    {moves : List Move} (hmoves : s.RunsUndisturbed moves)
    (hloaded : ∃ clock, .call clock .load ∈ moves) : (s.run moves).Recoverable := by
  induction moves generalizing s with
  | nil =>
    obtain ⟨clock, hmem⟩ := hloaded
    cases hmem
  | cons v moves ih =>
    obtain ⟨hv, hmoves⟩ := hmoves
    by_cases hload : ∃ clock, v = .call clock .load
    · obtain ⟨clock, rfl⟩ := hload
      rw [← h.settings_eq] at hrows
      rw [← h.store_eq] at hstore
      exact (recoverable_load hrows hstore hv).run hmoves
    · have hne : ∀ clock, v ≠ .call clock .load := fun clock hclock => hload ⟨clock, hclock⟩
      refine ih (h.move hv hne) hmoves ?_
      obtain ⟨clock, hmem⟩ := hloaded
      rcases List.mem_cons.1 hmem with hclock | hmem
      · exact absurd hclock.symm (hne clock)
      · exact ⟨clock, hmem⟩

/-! ## Recovery -/

/-- A session loads the grid that it has afterwards. -/
theorem result_load {stored : Option (List (JsonText × Json))} (h : s.store.load = .ok stored) :
    s.load.result = .ok s.load.session.sheet.grid := by
  unfold Session.load
  rw [h]

/-- A new session that loads the file of a recoverable one has its formulas and literals, and no cell
of it is focused. -/
theorem Recoverable.reopened (h : s.Recoverable) :
    s.reopen.load.result = .ok s.reopen.load.session.sheet.grid ∧
      s.reopen.load.session.editing = none ∧
      s.reopen.load.session.sheet.grid.SameInputs s.sheet.grid := by
  obtain ⟨stored, hload, hinputs⟩ := h.stored
  have hreopen : s.reopen.store.load = .ok stored := hload
  refine ⟨result_load hreopen, ?_⟩
  rcases load_cases s.reopen with ⟨-, e, herror⟩ | ⟨found, hfound, -, hsheet, hediting, -⟩
  · rw [result_load hreopen] at herror
    cases herror
  · obtain rfl := Except.ok.inj (hreopen.symm.trans hfound)
    refine ⟨hediting, ?_⟩
    rw [hsheet]
    have hswept := (Sheet.ofGrid (s.reopen.storedGrid stored).1 none).calculated_reconcile
    exact hswept.sameInputs.trans hinputs

/-- **What was entered can be recovered.** Whatever the file held at first, a new session loads the
formulas and the literals that the live one has at any time after it was loaded. Unless a cell is
focused, it loads the same cells. The bound on the rows only asks that their numbers can be read: they
have no more than 4300 digits. -/
theorem recovered_run {stored : Option (List (JsonText × Json))} {moves : List Move}
    (hrows : settings.rows < Address.rowBound) (hstore : store.load = .ok stored)
    (hmoves : (ofStore settings store).RunsUndisturbed moves)
    (hloaded : ∃ clock, .call clock .load ∈ moves) :
    ∃ g, ((ofStore settings store).run moves).reopen.load.result = .ok g ∧
      g.SameInputs ((ofStore settings store).run moves).sheet.grid ∧
      (((ofStore settings store).run moves).editing = none →
        ∀ a, g.get? a = ((ofStore settings store).run moves).sheet.grid.get? a) := by
  have hstart : (ofStore settings store).Untouched settings store := ⟨rfl, rfl, rfl⟩
  have hsound := sound_run settings store moves
  have hrecoverable := hstart.recoverable_run hrows hstore hmoves hloaded
  generalize (ofStore settings store).run moves = s at hsound hrecoverable ⊢
  obtain ⟨hresult, hnone, hinputs⟩ := hrecoverable.reopened
  have hreopened : s.reopen.load.session.Sound := (sound_ofStore s.settings s.store).load
  refine ⟨s.reopen.load.session.sheet.grid, hresult, hinputs, ?_⟩
  intro hediting a
  exact Grid.Current.get?_eq (hreopened.current hnone) (hsound.current hediting)
    hreopened.sheet.marked hsound.sheet.marked hinputs a

/-- The sheet is loaded, a text that is no literal replaces the number, and the cell is opened and
left again. -/
def loadedAndEmptied : List Move := .call (some 0) .load :: emptied ++ [leaving]

/-- A run in which the file is written three times, once while a cell is focused. -/
theorem recovered_emptied :
    oneCell.rows < Address.rowBound ∧
      (∃ stored, storedFive.load = .ok stored) ∧
      (ofStore oneCell storedFive).RunsUndisturbed loadedAndEmptied ∧
      (∃ clock, .call clock .load ∈ loadedAndEmptied) ∧
      ∃ g, ((ofStore oneCell storedFive).run loadedAndEmptied).reopen.load.result = .ok g ∧
        g.SameInputs ((ofStore oneCell storedFive).run loadedAndEmptied).sheet.grid ∧
        ∀ a, g.get? a = ((ofStore oneCell storedFive).run loadedAndEmptied).sheet.grid.get? a := by
  have hrows : oneCell.rows < Address.rowBound := Address.one_lt_rowBound
  have hjson : Json.Readable 2 (Snapshot.toJson [(⟨0, 0⟩, "5", none)]) :=
    Snapshot.readable_toJson (by decide)
  have hstore := Store.load_holding hjson (by decide) (Store.ofPath "grid.json")
  have hmoves : (ofStore oneCell storedFive).RunsUndisturbed loadedAndEmptied := by
    refine ⟨?_, ?_, ?_, ?_, trivial⟩ <;> decide +kernel
  have hloaded : ∃ clock, .call clock .load ∈ loadedAndEmptied := ⟨some 0, List.mem_cons_self⟩
  have hediting : ((ofStore oneCell storedFive).run loadedAndEmptied).editing = none := by
    decide +kernel
  obtain ⟨g, hresult, hinputs, hcells⟩ := recovered_run hrows hstore hmoves hloaded
  exact ⟨hrows, ⟨_, hstore⟩, hmoves, hloaded, g, hresult, hinputs, hcells hediting⟩

end Session

end Spreadsheet
