import Spreadsheet.Proofs.Session.Consistency
import Spreadsheet.Proofs.Sheet.Answers

/-!
# What formula cells show

A formula cell shows the result of its formula, now or at some time before: a finite number, or the
sentinel of a failure (`Cell.Displays`). The only other thing that it may show is nothing, and only
while it is focused, because focusing clears an error.

**Theorem (`displays_run`).** This holds after every run, with any file. What the file says that
formula cells show does not matter, because the sheet is swept when it is loaded.

While no cell is focused the sheet is current, so there is nothing to follow but the moves after which
a cell is focused.
-/

namespace Spreadsheet

open Text

/-! ## Cells -/

namespace Cell

/-- The cell, if it has a formula, shows a result that an evaluation may have. -/
def Displays (c : Cell) : Prop :=
  ∀ formula, c.formula = some formula → ∃ result : Except FormulaError Float,
    c = Cell.ofResult formula result ∧ ∀ x, result = .ok x → Number.isFinite x = true

/-- The cell shows nothing, and no error. -/
def Blank (c : Cell) : Prop := c.value = "" ∧ c.error = .none

theorem displays_of_literal {c : Cell} (h : c.formula = none) : c.Displays := by
  intro formula hf
  rw [h] at hf
  cases hf

theorem Shows.displays {g : Grid} {a : Address} {c : Cell} (h : c.Shows g a) : c.Displays :=
  fun formula hf => ⟨_, h formula hf, fun _ => Grid.isFinite_of_evaluateFormula⟩

end Cell

theorem Evaluation.displays_cell (e : Evaluation) : e.cell.Displays := by
  intro formula hf
  rw [cell, Cell.formula_ofResult] at hf
  obtain rfl := Option.some.inj hf
  exact ⟨e.result, rfl, fun _ => isFinite_of_result⟩

/-! ## Grids -/

namespace Grid

variable {g : Grid} {exempt : Address → Prop}

/-- Each formula cell shows a result, but one that is exempt may be blank. -/
def Displays (exempt : Address → Prop) (g : Grid) : Prop :=
  ∀ a c, g.get? a = some c → c.Displays ∨ c.Blank ∧ exempt a

theorem Current.displays (h : g.Current) : g.Displays exempt :=
  fun a c hc => .inl (h a c hc).displays

theorem Displays.mono {exempt' : Address → Prop} (h : g.Displays exempt)
    (himp : ∀ a, exempt a → exempt' a) : g.Displays exempt' :=
  fun a c hc => (h a c hc).imp_right (And.imp_right (himp a))

theorem Displays.set {c : Cell} (h : g.Displays exempt) (hc : c.Displays) (a : Address) :
    (g.set a c).Displays exempt := by
  intro b d hd
  rcases eq_or_get?_of_set hd with rfl | hd
  · exact .inl hc
  · exact h b d hd

theorem Displays.storeAll (h : g.Displays exempt) (es : List Evaluation) :
    (Evaluation.storeAll g es).Displays exempt := by
  induction es generalizing g with
  | nil => exact h
  | cons e es ih => exact ih (h.set e.displays_cell e.address)

theorem Displays.commit (h : g.Displays exempt) (limit : Int) (a : Address) (text : String) :
    (g.commit limit a text).1.Displays exempt := by
  have hstart : (g.commitStart a text).Displays exempt := by
    unfold commitStart
    split
    · exact h
    · rename_i hformula
      exact h.set (Cell.displays_of_literal (enter_other (Bool.eq_false_iff.2 hformula)).1) a
  rw [grid_commit]
  exact hstart.storeAll _

end Grid

/-! ## Sessions -/

namespace Session

variable {s t : Session} {clock : Option Nat} {a : Address} {text : String} {e : Editing}

/-- Each formula cell shows a result, but the focused one may be blank. -/
def Displays (s : Session) : Prop := s.sheet.grid.Displays fun a => s.isFocused a = true

theorem Displays.of_eq (h : s.Displays) (hsheet : t.sheet = s.sheet)
    (hediting : t.editing = s.editing) : t.Displays := by
  unfold Displays isFocused
  rw [hsheet, hediting]
  exact h

/-- While no cell is focused, the sheet is current. -/
theorem Sound.displays (h : s.Sound) (hnone : s.editing = none) : s.Displays :=
  (h.current hnone).displays

/-- Only the focused cell is exempt. -/
theorem displays_of_focused (hediting : s.editing = some e)
    (h : s.sheet.grid.Displays fun b => b = e.address) : s.Displays :=
  h.mono fun _ hb => hb ▸ isFocused_of_editing hediting

theorem Displays.of_isFocused (h : s.Displays) (hfocused : s.isFocused a = true) :
    s.sheet.grid.Displays fun b => b = a := by
  refine h.mono fun b hb => ?_
  unfold isFocused at hfocused hb
  obtain ⟨e, he, ha⟩ := (Option.any_eq_true ..).1 hfocused
  rw [he, Option.any_some] at hb
  exact (eq_of_beq hb).symm.trans (eq_of_beq ha)

theorem displays_commitAt (hs : s.Sound) (h : s.Displays) (clock : Option Nat) (a : Address)
    (text : String) : (s.commitAt clock a text).session.Displays := by
  cases hediting : (s.commitAt clock a text).session.editing with
  | none => exact (hs.commitAt clock a text).displays hediting
  | some e =>
    obtain ⟨hfocused, hsheet⟩ := focused_commitAt hediting
    refine displays_of_focused hediting ?_
    rw [hsheet, Sheet.grid_commit]
    exact (h.of_isFocused (isFocused_of_editing hfocused)).commit s.sheet.depthLimit a text

theorem displays_commit (hs : s.Sound) (h : s.Displays) (clock : Option Nat)
    (address text : Option String) : (s.commit clock address text).session.Displays := by
  rcases commit_cases clock s address text with ⟨e, -, heq⟩ | ⟨a, value, -, heq⟩
  · rw [heq]
    exact h
  · rw [heq]
    exact displays_commitAt hs h clock a value

/-- When a cell is about to be opened, no other is exempt. -/
theorem displays_left (hs : s.Sound) (h : s.Displays) (clock : Option Nat) (a : Address) :
    (s.left clock a).sheet.grid.Displays fun b => b = a := by
  cases hfocused : s.isFocused a with
  | true =>
    rw [left_of_isFocused hfocused]
    exact h.of_isFocused hfocused
  | false => exact ((hs.left clock a).current (editing_left hfocused)).displays

theorem displays_or_blank_opened {c : Cell} (h : c.Displays ∨ c.Blank) :
    (opened c).1.Displays ∨ (opened c).1.Blank := by
  rw [opened_cell]
  split
  · exact .inr ⟨rfl, rfl⟩
  · exact h

theorem displays_openedSheet (h : s.sheet.grid.Displays fun b => b = a) :
    (s.openedSheet a).grid.Displays fun b => b = a := by
  unfold openedSheet
  split
  · intro b d hd
    by_cases hb : b = a
    · have hcell : (s.cellAt a).Displays ∨ (s.cellAt a).Blank := by
        refine holds_cellAt (p := fun c => c.Displays ∨ c.Blank) (.inr ⟨rfl, rfl⟩) ?_
        exact fun c hc => (h a c hc).imp_right And.left
      rcases Grid.eq_or_get?_of_set hd with rfl | hd
      · exact (displays_or_blank_opened hcell).imp_right fun hblank => ⟨hblank, hb⟩
      · exact h b d hd
    · rw [Grid.get?_set_of_ne hb] at hd
      exact h b d hd
  · exact h

theorem displays_focusAt (hs : s.Sound) (h : s.Displays) (clock : Option Nat) (a : Address) :
    (s.focusAt clock a).session.Displays := by
  obtain ⟨hsheet, ⟨buffer, hediting⟩, -⟩ := focusAt_session clock s a
  refine displays_of_focused hediting ?_
  rw [hsheet]
  exact displays_openedSheet (displays_left hs h clock a)

theorem displays_edit (hs : s.Sound) (h : s.Displays) (clock : Option Nat)
    (address text : String) : (s.edit clock address text).session.Displays := by
  rcases edit_cases clock s address text with heq | ⟨a, hlocate, t, e, ht, heq⟩
  · rw [heq]
    exact h
  · have hediting : (s.edit clock address text).session.editing = some e := by rw [heq]
    have haddress := address_of_edit hlocate hediting
    refine displays_of_focused hediting ?_
    rw [heq, haddress]
    rcases ht with ⟨hfocused, rfl⟩ | ⟨-, rfl⟩
    · exact h.of_isFocused hfocused
    · obtain ⟨-, ⟨buffer, hfocus⟩, -⟩ := focusAt_session clock s a
      exact (displays_focusAt hs h clock a).of_isFocused (isFocused_of_editing hfocus)

theorem displays_load (hs : s.Sound) (h : s.Displays) : s.load.session.Displays := by
  rcases load_cases s with ⟨heq, -⟩ | ⟨-, -, -, -, hediting, -⟩
  · rw [heq]
    exact h
  · exact hs.load.displays hediting

theorem displays_sweep (hs : s.Sound) (h : s.Displays) : s.sweep.1.Displays := by
  cases hediting : s.editing with
  | none => exact (sound_sweep hs.sheet).displays ((editing_sweep s).trans hediting)
  | some e =>
    rw [sweep_of_focused hediting]
    exact h

/-! ## Runs -/

/-- **The step lemma.** -/
theorem displays_move (hs : s.Sound) (h : s.Displays) (v : Move) : (s.move v).Displays := by
  cases v with
  | fire now => exact h.of_eq rfl rfl
  | resume now number reply => exact h.of_eq rfl rfl
  | rewrite store => exact h.of_eq rfl rfl
  | call clock c =>
    cases c with
    | load => exact displays_load hs h
    | focus address =>
      show (s.focus clock address).session.Displays
      rcases focus_cases clock s address with heq | ⟨a, -, heq⟩
      · rw [heq]
        exact h
      · rw [heq]
        exact displays_focusAt hs h clock a
    | edit address text => exact displays_edit hs h clock address text
    | commit address text => exact displays_commit hs h clock address text
    | clear address => exact displays_commit hs h clock (some address) (some "")
    | reconcile =>
      show s.reconcile.session.Displays
      rcases reconcile_cases s with heq | heq
      · rw [heq]
        exact h
      · rw [heq]
        exact displays_sweep hs h
    | save =>
      show (s.save clock).session.Displays
      rcases save_cases clock s with heq | heq
      · rw [heq]
        exact h
      · rw [heq]
        exact h.of_eq (sheet_trigger clock s) (editing_trigger clock s)
    | dispose => exact h.of_eq rfl rfl

/-- **What formula cells show**, whatever was in the file. -/
theorem displays_run (settings : Settings) (store : Store) (moves : List Move) :
    ((ofStore settings store).run moves).Displays := by
  have hstart : (ofStore settings store).Sound ∧ (ofStore settings store).Displays :=
    ⟨sound_ofStore settings store, (sound_ofStore settings store).displays rfl⟩
  exact (run_induction (p := fun s => s.Sound ∧ s.Displays) hstart
    (fun _ v h => ⟨h.1.move v, displays_move h.1 h.2 v⟩) moves).2

end Session

end Spreadsheet
