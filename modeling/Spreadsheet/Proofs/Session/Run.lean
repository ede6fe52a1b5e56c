import Spreadsheet.Proofs.Saving.Moves
import Spreadsheet.Session

/-!
# Runs of a session

A session is moved by its calls, by the end of the window of quiet and by saves that go on. A call
is made inside or outside an event loop, which decides whether there is a clock. The file may also
be changed by others. A run is any list of moves.

Each operation is described once, by what it does to the sheet, to the focus and to the window of
quiet; the proofs about runs use these descriptions only.
-/

namespace Spreadsheet

namespace Session

/-! ## Moves -/

/-- A call of a session. -/
inductive Call where
  | load
  | focus (address : String)
  | edit (address text : String)
  | commit (address text : Option String)
  | clear (address : String)
  | reconcile
  | save
  | dispose
  deriving DecidableEq, Repr

/-- The session after a call. -/
def call (clock : Option Nat) (s : Session) : Call → Session
  | .load => s.load.session
  | .focus address => (s.focus clock address).session
  | .edit address text => (s.edit clock address text).session
  | .commit address text => (s.commit clock address text).session
  | .clear address => (s.clear clock address).session
  | .reconcile => s.reconcile.session
  | .save => (s.save clock).session
  | .dispose => s.dispose

/-- What happens to a session next. -/
inductive Move where
  | call (clock : Option Nat) (c : Call)
  /-- The window of quiet ends. -/
  | fire (now : Nat)
  /-- The save with a number goes on. If it sends a request, this is the reply. -/
  | resume (now number : Nat) (reply : Reply)
  /-- Others change the file. -/
  | rewrite (store : Store)

def move (s : Session) : Move → Session
  | .call clock c => s.call clock c
  | .fire now => { s with manager := (s.manager.move (.fire now (Saver.read s))).manager }
  | .resume now number reply =>
    { s with manager := (s.manager.move (.resume now number reply)).manager }
  | .rewrite store => { s with store := store }

/-- The session after moves in order. -/
def run (s : Session) (moves : List Move) : Session := moves.foldl move s

/-- What every move preserves holds after every run. -/
theorem run_induction {p : Session → Prop} {s : Session} (hs : p s)
    (hmove : ∀ s v, p s → p (move s v)) (moves : List Move) : p (s.run moves) := by
  induction moves generalizing s with
  | nil => exact hs
  | cons v moves ih => exact ih (hmove s v hs)

theorem run_append (s : Session) (before later : List Move) :
    s.run (before ++ later) = (s.run before).run later :=
  List.foldl_append

variable {clock : Option Nat} {s : Session} {a : Address} {text : String} {e : Editing}

/-! ## Writing the file -/

/-- Writing the file changes nothing of the session but its store. -/
theorem persist_eq (s : Session) : ∃ store, s.persist.1 = { s with store := store } := by
  unfold persist
  split
  · exact ⟨_, rfl⟩
  · exact ⟨_, rfl⟩

theorem sheet_persist (s : Session) : s.persist.1.sheet = s.sheet := by
  obtain ⟨store, heq⟩ := s.persist_eq
  rw [heq]

theorem editing_persist (s : Session) : s.persist.1.editing = s.editing := by
  obtain ⟨store, heq⟩ := s.persist_eq
  rw [heq]

theorem loaded_persist (s : Session) : s.persist.1.loaded = s.loaded := by
  obtain ⟨store, heq⟩ := s.persist_eq
  rw [heq]

theorem manager_persist (s : Session) : s.persist.1.manager = s.manager := by
  obtain ⟨store, heq⟩ := s.persist_eq
  rw [heq]

/-! ## Starting the window of quiet -/

theorem trigger_of_hasErrors (h : s.sheet.grid.hasErrors = true) :
    (s.trigger clock).session = s := by
  unfold trigger
  rw [if_pos h]

theorem trigger_of_not_hasErrors {now : Nat} (h : s.sheet.grid.hasErrors = false) :
    (s.trigger (some now)).session = { s with manager := s.manager.schedule now () } := by
  unfold trigger
  rw [h]
  rfl

/-- At most a window of quiet is started. -/
theorem trigger_cases (clock : Option Nat) (s : Session) :
    (s.trigger clock).session = s ∨
      ∃ now, (s.trigger clock).session = { s with manager := s.manager.schedule now () } := by
  unfold trigger
  split
  · exact .inl rfl
  · cases clock with
    | none => exact .inl rfl
    | some now => exact .inr ⟨now, rfl⟩

theorem sheet_trigger (clock : Option Nat) (s : Session) :
    (s.trigger clock).session.sheet = s.sheet := by
  rcases trigger_cases clock s with heq | ⟨now, heq⟩ <;> rw [heq]

theorem editing_trigger (clock : Option Nat) (s : Session) :
    (s.trigger clock).session.editing = s.editing := by
  rcases trigger_cases clock s with heq | ⟨now, heq⟩ <;> rw [heq]

theorem loaded_trigger (clock : Option Nat) (s : Session) :
    (s.trigger clock).session.loaded = s.loaded := by
  rcases trigger_cases clock s with heq | ⟨now, heq⟩ <;> rw [heq]

theorem settings_trigger (clock : Option Nat) (s : Session) :
    (s.trigger clock).session.settings = s.settings := by
  rcases trigger_cases clock s with heq | ⟨now, heq⟩ <;> rw [heq]

theorem store_trigger (clock : Option Nat) (s : Session) :
    (s.trigger clock).session.store = s.store := by
  rcases trigger_cases clock s with heq | ⟨now, heq⟩ <;> rw [heq]

/-! ## Sweeps -/

theorem sweep_of_focused {e : Editing} (h : s.editing = some e) :
    s.sweep = (s, { ran := false }) := by
  unfold sweep
  rw [h]

theorem sweep_of_not_focused (h : s.editing = none) :
    s.sweep = ({ s with sheet := s.sheet.reconcile.1 }, s.sheet.reconcile.2) := by
  unfold sweep
  rw [h]

theorem editing_sweep (s : Session) : s.sweep.1.editing = s.editing := by
  cases h : s.editing with
  | none => rw [sweep_of_not_focused h, ← h]
  | some e => rw [sweep_of_focused h, h]

theorem loaded_sweep (s : Session) : s.sweep.1.loaded = s.loaded := by
  cases h : s.editing with
  | none => rw [sweep_of_not_focused h]
  | some e => rw [sweep_of_focused h]

theorem manager_sweep (s : Session) : s.sweep.1.manager = s.manager := by
  cases h : s.editing with
  | none => rw [sweep_of_not_focused h]
  | some e => rw [sweep_of_focused h]

theorem settings_sweep (s : Session) : s.sweep.1.settings = s.settings := by
  cases h : s.editing with
  | none => rw [sweep_of_not_focused h]
  | some e => rw [sweep_of_focused h]

theorem store_sweep (s : Session) : s.sweep.1.store = s.store := by
  cases h : s.editing with
  | none => rw [sweep_of_not_focused h]
  | some e => rw [sweep_of_focused h]

/-! ## Commits -/

theorem sheet_leave (s : Session) (a : Address) : (s.leave a).sheet = s.sheet := by
  unfold leave
  split <;> rfl

theorem loaded_leave (s : Session) (a : Address) : (s.leave a).loaded = s.loaded := by
  unfold leave
  split <;> rfl

theorem manager_leave (s : Session) (a : Address) : (s.leave a).manager = s.manager := by
  unfold leave
  split <;> rfl

/-- The session after a text was entered and before the sheet is swept. -/
def entered (s : Session) (a : Address) (text : String) : Session :=
  { s.leave a with sheet := ((s.leave a).sheet.commit a text).1 }

theorem sheet_entered (s : Session) (a : Address) (text : String) :
    (s.entered a text).sheet = (s.sheet.commit a text).1 := by
  rw [entered, sheet_leave]

theorem editing_entered (s : Session) (a : Address) (text : String) :
    (s.entered a text).editing = (s.leave a).editing := by
  rw [entered]

theorem loaded_entered (s : Session) (a : Address) (text : String) :
    (s.entered a text).loaded = s.loaded := by
  rw [entered, ← loaded_leave s a]

theorem manager_entered (s : Session) (a : Address) (text : String) :
    (s.entered a text).manager = s.manager := by
  rw [entered, ← manager_leave s a]

theorem settings_entered (s : Session) (a : Address) (text : String) :
    (s.entered a text).settings = s.settings := by
  unfold entered leave
  split <;> rfl

theorem store_entered (s : Session) (a : Address) (text : String) :
    (s.entered a text).store = s.store := by
  unfold entered leave
  split <;> rfl

/-- A commit enters the text, sweeps the sheet and writes the file. If what a cell shows has
changed, it starts the window of quiet. -/
theorem session_commitAt (clock : Option Nat) (s : Session) (a : Address) (text : String) :
    (s.commitAt clock a text).session =
      if (s.sheet.commit a text).2.changed || (s.entered a text).sweep.2.changed then
        ((s.entered a text).sweep.1.persist.1.trigger clock).session
      else (s.entered a text).sweep.1.persist.1 := by
  have hsheet := sheet_leave s a
  unfold commitAt entered
  rw [← hsheet]
  generalize s.leave a = t
  dsimp only
  generalize t.sheet.commit a text = committed
  obtain ⟨sheet, result⟩ := committed
  dsimp only
  generalize sweep _ = swept
  obtain ⟨u, sweepResult⟩ := swept
  dsimp only
  generalize persist u = written
  obtain ⟨u', effects⟩ := written
  dsimp only
  cases result.changed || sweepResult.changed <;> rfl

theorem sheet_commitAt (clock : Option Nat) (s : Session) (a : Address) (text : String) :
    (s.commitAt clock a text).session.sheet = (s.entered a text).sweep.1.sheet := by
  rw [session_commitAt]
  split
  · rw [sheet_trigger, sheet_persist]
  · rw [sheet_persist]

theorem editing_commitAt (clock : Option Nat) (s : Session) (a : Address) (text : String) :
    (s.commitAt clock a text).session.editing = (s.leave a).editing := by
  rw [session_commitAt]
  split
  · rw [editing_trigger, editing_persist, editing_sweep, editing_entered]
  · rw [editing_persist, editing_sweep, editing_entered]

theorem loaded_commitAt (clock : Option Nat) (s : Session) (a : Address) (text : String) :
    (s.commitAt clock a text).session.loaded = s.loaded := by
  rw [session_commitAt]
  split
  · rw [loaded_trigger, loaded_persist, loaded_sweep, loaded_entered]
  · rw [loaded_persist, loaded_sweep, loaded_entered]

/-- A commit is refused and changes nothing, or it commits to a cell of the grid. -/
theorem commit_cases (clock : Option Nat) (s : Session) (address text : Option String) :
    (∃ e, (s.commit clock address text).result = .error e ∧
        (s.commit clock address text).session = s) ∨
      ∃ a value, s.target address = .ok a ∧
        (s.commit clock address text).session = (s.commitAt clock a value).session := by
  unfold commit
  cases htarget : s.target address with
  | error e => exact .inl ⟨e, rfl, rfl⟩
  | ok a =>
    dsimp only
    exact .inr ⟨a, text.getD (s.textAt a), rfl, rfl⟩

/-! ## Focus -/

/-- What holds of an empty cell and of a cell of the grid holds of the cell at an address. -/
theorem holds_cellAt {p : Cell → Prop} (hempty : p Cell.empty)
    (h : ∀ c, s.sheet.grid.get? a = some c → p c) : p (s.cellAt a) := by
  unfold cellAt
  cases hc : s.sheet.grid.get? a with
  | none => exact hempty
  | some c => exact h c hc

theorem isFocused_of_editing (h : s.editing = some e) : s.isFocused e.address = true := by
  rw [isFocused, h, Option.any_some]
  exact beq_self_eq_true _

theorem isFocused_of_ne (h : s.editing = some e) (hne : a ≠ e.address) : s.isFocused a = false := by
  rw [isFocused, h, Option.any_some]
  simpa using hne.symm

theorem leaveOther_of_none (h : s.editing = none) (clock : Option Nat) (a : Address) :
    s.leaveOther clock a = (s, []) := by
  unfold leaveOther
  rw [h]

theorem leaveOther_of_isFocused (h : s.isFocused a = true) (clock : Option Nat) :
    s.leaveOther clock a = (s, []) := by
  unfold isFocused at h
  obtain ⟨e, he, haddress⟩ := (Option.any_eq_true ..).1 h
  unfold leaveOther
  rw [he]
  exact if_pos (by simpa using haddress)

theorem leaveOther_of_ne (h : s.editing = some e) (hne : e.address ≠ a) (clock : Option Nat) :
    s.leaveOther clock a =
      ((s.commitAt clock e.address e.buffer).session,
        (s.commitAt clock e.address e.buffer).effects) := by
  unfold leaveOther
  rw [h]
  exact if_neg hne

/-- The session after the cell focused before was committed, if it was another one. -/
def left (clock : Option Nat) (s : Session) (a : Address) : Session := (s.leaveOther clock a).1

/-- The cell focused before is committed if it was another one, and nothing else is done. -/
theorem left_cases (clock : Option Nat) (s : Session) (a : Address) :
    s.left clock a = s ∨
      ∃ e, s.editing = some e ∧
        s.left clock a = (s.commitAt clock e.address e.buffer).session := by
  unfold left
  cases hediting : s.editing with
  | none => exact .inl (by rw [leaveOther_of_none hediting])
  | some e =>
    by_cases haddress : e.address = a
    · exact .inl (by rw [leaveOther_of_isFocused (haddress ▸ isFocused_of_editing hediting)])
    · exact .inr ⟨e, rfl, by rw [leaveOther_of_ne hediting haddress]⟩

/-- A cell in error is blank once it is opened, and keeps its formula. Any other stays as it is. -/
theorem opened_cell (c : Cell) :
    (opened c).1 = if c.isError then ⟨"", c.formula, .none⟩ else c := by
  unfold opened
  cases hf : c.formula with
  | some formula => rfl
  | none => cases c.isError <;> rfl

/-- The sheet after a cell was opened, of which an error is cleared. -/
def openedSheet (s : Session) (a : Address) : Sheet :=
  if (s.cellAt a).isError then
    { s.sheet with grid := s.sheet.grid.set a (opened (s.cellAt a)).1 }
  else s.sheet

/-- Focusing a cell commits the one before, clears an error of the cell, and opens it. -/
theorem focusAt_session (clock : Option Nat) (s : Session) (a : Address) :
    (s.focusAt clock a).session.sheet = (s.left clock a).openedSheet a ∧
      (∃ buffer, (s.focusAt clock a).session.editing = some ⟨a, buffer⟩) ∧
      (s.focusAt clock a).session.manager = (s.left clock a).manager ∧
      (s.focusAt clock a).session.loaded = (s.left clock a).loaded := by
  unfold focusAt left openedSheet
  generalize s.leaveOther clock a = before
  obtain ⟨t, effects⟩ := before
  dsimp only
  cases (t.cellAt a).isError with
  | true => exact ⟨sheet_persist _, ⟨_, rfl⟩, manager_persist _, loaded_persist _⟩
  | false => exact ⟨rfl, ⟨_, rfl⟩, rfl, rfl⟩

/-- Focusing a cell fills the buffer from the cell. -/
theorem focusAt_buffer (clock : Option Nat) (s : Session) (a : Address) :
    (s.focusAt clock a).result = (opened ((s.left clock a).cellAt a)).2 ∧
      (s.focusAt clock a).session.editing =
        some ⟨a, (opened ((s.left clock a).cellAt a)).2⟩ := by
  unfold focusAt left
  generalize s.leaveOther clock a = before
  obtain ⟨t, effects⟩ := before
  dsimp only
  cases (t.cellAt a).isError <;> exact ⟨rfl, rfl⟩

/-- Focusing is refused and changes nothing, or it focuses a cell of the grid. -/
theorem focus_cases (clock : Option Nat) (s : Session) (address : String) :
    (s.focus clock address).session = s ∨
      ∃ a, s.locate address = .ok a ∧
        (s.focus clock address).session = (s.focusAt clock a).session := by
  unfold focus
  cases hlocate : s.locate address with
  | error e => exact .inl rfl
  | ok a => exact .inr ⟨a, rfl, rfl⟩

theorem edit_of_error {address : String} {refusal : SessionError}
    (hlocate : s.locate address = .error refusal) (clock : Option Nat) (text : String) :
    s.edit clock address text = ⟨s, [], .error refusal⟩ := by
  unfold edit
  rw [hlocate]
  rfl

/-- An edit of the focused cell replaces its buffer with a text that is accepted. -/
theorem edit_of_focused {address : String} (hlocate : s.locate address = .ok a)
    (hfocused : s.isFocused a = true) (clock : Option Nat) (text : String) :
    s.edit clock address text =
      ⟨if accepts text then { s with editing := some ⟨a, text⟩ } else s, [], .ok (accepts text)⟩ := by
  unfold edit
  rw [hlocate]
  dsimp only
  rw [if_pos hfocused]
  cases accepts text <;> rfl

/-- An edit focuses a cell that is not focused yet. -/
theorem edit_of_not_focused {address : String} (hlocate : s.locate address = .ok a)
    (hfocused : s.isFocused a = false) (clock : Option Nat) (text : String) :
    s.edit clock address text =
      ⟨if accepts text then { (s.focusAt clock a).session with editing := some ⟨a, text⟩ }
        else (s.focusAt clock a).session, (s.focusAt clock a).effects, .ok (accepts text)⟩ := by
  unfold edit
  rw [hlocate]
  dsimp only
  rw [hfocused]
  generalize s.focusAt clock a = done
  cases accepts text <;> rfl

theorem result_edit {address : String} (hlocate : s.locate address = .ok a) (clock : Option Nat)
    (text : String) : (s.edit clock address text).result = .ok (accepts text) := by
  cases hfocused : s.isFocused a with
  | true => rw [edit_of_focused hlocate hfocused]
  | false => rw [edit_of_not_focused hlocate hfocused]

/-- An edit is refused and changes nothing, or it focuses the cell, unless it was focused before,
and at most replaces the buffer. -/
theorem edit_cases (clock : Option Nat) (s : Session) (address text : String) :
    (s.edit clock address text).session = s ∨
      ∃ a, s.locate address = .ok a ∧ ∃ t : Session, ∃ e : Editing,
        ((s.isFocused a = true ∧ t = s) ∨
          (s.isFocused a = false ∧ t = (s.focusAt clock a).session)) ∧
        (s.edit clock address text).session = { t with editing := some e } := by
  cases hlocate : s.locate address with
  | error e => exact .inl (by rw [edit_of_error hlocate])
  | ok a =>
    refine .inr ⟨a, rfl, ?_⟩
    cases hfocused : s.isFocused a with
    | true =>
      rw [edit_of_focused hlocate hfocused]
      obtain ⟨e, he⟩ : ∃ e, s.editing = some e := by
        unfold isFocused at hfocused
        obtain ⟨e, he, -⟩ := (Option.any_eq_true ..).1 hfocused
        exact ⟨e, he⟩
      cases accepts text with
      | true => exact ⟨s, ⟨a, text⟩, .inl ⟨rfl, rfl⟩, rfl⟩
      | false => exact ⟨s, e, .inl ⟨rfl, rfl⟩, by rw [← he]; rfl⟩
    | false =>
      rw [edit_of_not_focused hlocate hfocused]
      obtain ⟨-, ⟨buffer, hediting⟩, -⟩ := focusAt_session clock s a
      cases accepts text with
      | true => exact ⟨_, ⟨a, text⟩, .inr ⟨rfl, rfl⟩, rfl⟩
      | false => exact ⟨_, _, .inr ⟨rfl, rfl⟩, by rw [← hediting]; rfl⟩

/-- Once the focused cell is committed, no cell is focused. -/
theorem editing_commitAt_of_isFocused (h : s.isFocused a = true) :
    (s.commitAt clock a text).session.editing = none := by
  rw [editing_commitAt, leave, if_pos h]

theorem left_of_isFocused (h : s.isFocused a = true) : s.left clock a = s := by
  rw [left, leaveOther_of_isFocused h]

/-- Once another cell is left, no cell is focused. -/
theorem editing_left (h : s.isFocused a = false) : (s.left clock a).editing = none := by
  unfold left
  cases he : s.editing with
  | none =>
    rw [leaveOther_of_none he]
    exact he
  | some e =>
    have haddress : e.address ≠ a := fun heq => by
      rw [← heq, isFocused_of_editing he] at h
      cases h
    rw [leaveOther_of_ne he haddress]
    dsimp only
    exact editing_commitAt_of_isFocused (isFocused_of_editing he)

/-- A commit after which a cell is focused is one to another cell, and no sweep follows it. -/
theorem focused_commitAt {text : String}
    (h : (s.commitAt clock a text).session.editing = some e) :
    s.editing = some e ∧ (s.commitAt clock a text).session.sheet = (s.sheet.commit a text).1 := by
  rw [editing_commitAt] at h
  have hsheet : (s.commitAt clock a text).session.sheet = (s.sheet.commit a text).1 := by
    rw [sheet_commitAt, sweep_of_focused ((editing_entered s a text).trans h), sheet_entered]
  refine ⟨?_, hsheet⟩
  unfold leave at h
  split at h
  · cases h
  · exact h

/-- An edit focuses the cell that it is for. -/
theorem address_of_edit {address text : String} (hlocate : s.locate address = .ok a)
    (h : (s.edit clock address text).session.editing = some e) : e.address = a := by
  cases hfocused : s.isFocused a with
  | true =>
    rw [edit_of_focused hlocate hfocused] at h
    dsimp only at h
    split at h
    · rw [← Option.some.inj h]
    · rw [isFocused, h, Option.any_some] at hfocused
      exact eq_of_beq hfocused
  | false =>
    obtain ⟨-, ⟨buffer, hediting⟩, -⟩ := focusAt_session clock s a
    rw [edit_of_not_focused hlocate hfocused] at h
    dsimp only at h
    split at h
    · rw [← Option.some.inj h]
    · rw [hediting] at h
      rw [← Option.some.inj h]

/-! ## Loading and sweeping -/

/-- Loading fails and changes nothing, or it takes the grid from the file and sweeps it. -/
theorem load_cases (s : Session) :
    (s.load.session = s ∧ ∃ e, s.load.result = .error e) ∨
      ∃ stored, s.store.load = .ok stored ∧ (∃ g, s.load.result = .ok g) ∧
        s.load.session.sheet = (Sheet.ofGrid (s.storedGrid stored).1 none).reconcile.1 ∧
        s.load.session.editing = none ∧ s.load.session.loaded = true ∧
        s.load.session.manager = s.manager := by
  unfold load
  cases hload : s.store.load with
  | error e => exact .inl ⟨rfl, e, rfl⟩
  | ok stored =>
    refine .inr ⟨stored, rfl, ⟨_, rfl⟩, ?_⟩
    dsimp only
    generalize (Sheet.ofGrid (s.storedGrid stored).1 none).reconcile = swept
    obtain ⟨sheet, result⟩ := swept
    dsimp only
    cases result.changed with
    | true => exact ⟨sheet_persist _, editing_persist _, loaded_persist _, manager_persist _⟩
    | false => exact ⟨rfl, rfl, rfl, rfl⟩

/-- A sweep that is asked for is the sweep of the sheet, or it is refused. -/
theorem reconcile_cases (s : Session) :
    s.reconcile.session = s ∨ s.reconcile.session = s.sweep.1 := by
  unfold Session.reconcile
  cases s.loaded with
  | true => exact .inr rfl
  | false => exact .inl rfl

/-- A save that is asked for starts the window of quiet, or it is refused. -/
theorem save_cases (clock : Option Nat) (s : Session) :
    (s.save clock).session = s ∨ (s.save clock).session = (s.trigger clock).session := by
  unfold save
  cases s.loaded with
  | true => exact .inr rfl
  | false => exact .inl rfl

/-! ## What moves do to the sheet -/

/-- A property of sheets that is kept by all that a session does to its sheet. -/
structure SheetInvariant (p : Sheet → Prop) : Prop where
  ofGrid : ∀ g, p (.ofGrid g none)
  commit : ∀ t a text, p t → p (t.commit a text).1
  reconcile : ∀ t, p t → p t.reconcile.1
  set : ∀ (t : Sheet) (a : Address) (c : Cell), p t → p { t with grid := t.grid.set a c }

namespace SheetInvariant

variable {p : Sheet → Prop} (hp : SheetInvariant p)

include hp

theorem sweep (h : p s.sheet) : p s.sweep.1.sheet := by
  cases hediting : s.editing with
  | none =>
    rw [sweep_of_not_focused hediting]
    exact hp.reconcile _ h
  | some e =>
    rw [sweep_of_focused hediting]
    exact h

theorem commitAt (h : p s.sheet) (clock : Option Nat) (a : Address) (text : String) :
    p (s.commitAt clock a text).session.sheet := by
  rw [sheet_commitAt]
  refine hp.sweep ?_
  rw [sheet_entered]
  exact hp.commit _ a text h

theorem commitOf (h : p s.sheet) (clock : Option Nat) (address text : Option String) :
    p (s.commit clock address text).session.sheet := by
  rcases commit_cases clock s address text with ⟨-, -, heq⟩ | ⟨a, value, -, heq⟩
  · rw [heq]
    exact h
  · rw [heq]
    exact hp.commitAt h clock a value

theorem focusAt (h : p s.sheet) (clock : Option Nat) (a : Address) :
    p (s.focusAt clock a).session.sheet := by
  have hleft : p (s.left clock a).sheet := by
    rcases left_cases clock s a with heq | ⟨e, -, heq⟩
    · rw [heq]
      exact h
    · rw [heq]
      exact hp.commitAt h clock e.address e.buffer
  rw [(focusAt_session clock s a).1, openedSheet]
  split
  · exact hp.set _ a _ hleft
  · exact hleft

theorem edit (h : p s.sheet) (clock : Option Nat) (address text : String) :
    p (s.edit clock address text).session.sheet := by
  rcases edit_cases clock s address text with heq | ⟨a, -, t, e, ht, heq⟩
  · rw [heq]
    exact h
  · rw [heq]
    rcases ht with ⟨-, rfl⟩ | ⟨-, rfl⟩
    · exact h
    · exact hp.focusAt h clock a

theorem load (h : p s.sheet) : p s.load.session.sheet := by
  rcases load_cases s with ⟨heq, -⟩ | ⟨stored, -, -, hsheet, -⟩
  · rw [heq]
    exact h
  · rw [hsheet]
    exact hp.reconcile _ (hp.ofGrid _)

/-- **What operations keep of the sheet, every move keeps.** -/
theorem move (h : p s.sheet) (v : Move) : p (s.move v).sheet := by
  cases v with
  | call clock c =>
    cases c with
    | load => exact hp.load h
    | focus address =>
      show p (s.focus clock address).session.sheet
      rcases focus_cases clock s address with heq | ⟨a, -, heq⟩
      · rw [heq]
        exact h
      · rw [heq]
        exact hp.focusAt h clock a
    | edit address text => exact hp.edit h clock address text
    | commit address text => exact hp.commitOf h clock address text
    | clear address => exact hp.commitOf h clock (some address) (some "")
    | reconcile =>
      show p s.reconcile.session.sheet
      rcases reconcile_cases s with heq | heq
      · rw [heq]
        exact h
      · rw [heq]
        exact hp.sweep h
    | save =>
      show p (s.save clock).session.sheet
      rcases save_cases clock s with heq | heq
      · rw [heq]
        exact h
      · rw [heq, sheet_trigger]
        exact h
    | dispose => exact h
  | fire now => exact h
  | resume now number reply => exact h
  | rewrite store => exact h

end SheetInvariant

end Session

end Spreadsheet
