import Spreadsheet.Proofs.Session.Recovery
import Spreadsheet.Proofs.Sheet.Answers

/-!
# Calls are refused or answered

A cell is focused, edited, committed or cleared by its address, and the focused cell is committed
without one. Such a call is refused for one of three reasons (`Session.refusal?`): the session is not
loaded, the address names no cell, or there is neither an address nor a focused cell.

**Theorem (`calls_answered`).** A call that is refused changes nothing, and any other one returns.
There is nothing that could go wrong on the way: evaluations, and the walks that carry a change on,
lack nothing, whatever is in the cells; and the focused cell, which may have to be committed first, is
one of the grid.
-/

namespace Spreadsheet

namespace Session

variable {s : Session} {clock : Option Nat}

/-! ## Refusals -/

/-- Why a call is refused that is for the cell at an address or, without one, for the focused cell. -/
def refusal? (s : Session) (address : Option String) : Option SessionError :=
  if s.loaded then
    match address with
    | none => if s.editing.isNone then some .noTarget else none
    | some text =>
      match Address.parse text with
      | .error _ => some (.missing ⟨text⟩)
      | .ok a => if s.sheet.grid.Contains a then none else some (.missing ⟨a.name⟩)
  else some .notLoaded

/-- A call that is refused leaves the session as it is, and nothing is seen of it. Any other call
returns. -/
def Returns {α : Type} (s : Session) (refusal? : Option SessionError)
    (done : Outcome (Except SessionError α)) : Prop :=
  match refusal? with
  | some e => done = ⟨s, [], .error e⟩
  | none => ∃ result, done.result = .ok result

theorem locate_cases (s : Session) (address : String) :
    (∃ e, s.refusal? (some address) = some e ∧ s.locate address = .error e) ∨
      s.refusal? (some address) = none ∧ ∃ a, s.sheet.grid.Contains a ∧ s.locate address = .ok a := by
  unfold refusal? locate Grid.locate
  dsimp only
  cases s.loaded with
  | false => exact .inl ⟨.notLoaded, rfl, rfl⟩
  | true =>
    rw [if_pos rfl, if_pos rfl]
    cases Address.parse address with
    | error _ => exact .inl ⟨.missing ⟨address⟩, rfl, rfl⟩
    | ok a =>
      dsimp only
      by_cases ha : s.sheet.grid.Contains a
      · rw [if_pos ha, if_pos ha]
        exact .inr ⟨rfl, a, ha, rfl⟩
      · rw [if_neg ha, if_neg ha]
        exact .inl ⟨.missing ⟨a.name⟩, rfl, rfl⟩

theorem target_cases (s : Session) (address : Option String) :
    (∃ e, s.refusal? address = some e ∧ s.target address = .error e) ∨
      s.refusal? address = none ∧ ∃ a, s.target address = .ok a := by
  cases address with
  | some text =>
    rcases s.locate_cases text with hrefused | ⟨hnone, a, -, hlocate⟩
    · exact .inl hrefused
    · exact .inr ⟨hnone, a, hlocate⟩
  | none =>
    unfold refusal? target
    cases s.loaded with
    | false => exact .inl ⟨.notLoaded, rfl, rfl⟩
    | true =>
      cases s.editing with
      | none => exact .inl ⟨.noTarget, rfl, rfl⟩
      | some e => exact .inr ⟨rfl, e.address, rfl⟩

theorem returns_focus (s : Session) (clock : Option Nat) (address : String) :
    s.Returns (s.refusal? (some address)) (s.focus clock address) := by
  unfold focus
  rcases s.locate_cases address with ⟨e, hrefusal, hlocate⟩ | ⟨hrefusal, a, -, hlocate⟩
  · rw [hrefusal, hlocate]
    rfl
  · rw [hrefusal, hlocate]
    exact ⟨_, rfl⟩

theorem returns_edit (s : Session) (clock : Option Nat) (address text : String) :
    s.Returns (s.refusal? (some address)) (s.edit clock address text) := by
  rcases s.locate_cases address with ⟨e, hrefusal, hlocate⟩ | ⟨hrefusal, a, -, hlocate⟩
  · rw [hrefusal, edit_of_error hlocate]
    rfl
  · rw [hrefusal]
    exact ⟨_, result_edit hlocate clock text⟩

theorem returns_commit (s : Session) (clock : Option Nat) (address text : Option String) :
    s.Returns (s.refusal? address) (s.commit clock address text) := by
  unfold commit
  rcases s.target_cases address with ⟨e, hrefusal, htarget⟩ | ⟨hrefusal, a, htarget⟩
  · rw [hrefusal, htarget]
    rfl
  · rw [hrefusal, htarget]
    exact ⟨_, rfl⟩

/-! ## The focused cell -/

/-- The focused cell is one of the grid. -/
def FocusedInside (s : Session) : Prop :=
  ∀ e, s.editing = some e → s.sheet.grid.Contains e.address

theorem FocusedInside.of_eq {t : Session} (h : s.FocusedInside)
    (hsize : t.sheet.grid.SameSize s.sheet.grid) (hediting : t.editing = s.editing) :
    t.FocusedInside :=
  fun e he => (Grid.contains_congr hsize e.address).2 (h e (hediting ▸ he))

theorem focusedInside_commit (h : s.FocusedInside) (clock : Option Nat)
    (address text : Option String) : (s.commit clock address text).session.FocusedInside := by
  rcases commit_cases clock s address text with ⟨-, -, heq⟩ | ⟨a, value, -, heq⟩
  · rw [heq]
    exact h
  · rw [heq]
    intro e he
    exact (Grid.contains_congr (sameSize_commitAt clock s a value) e.address).2
      (h e (focused_commitAt he).1)

/-- Focusing a cell keeps the size of the grid. -/
theorem sameSize_focusAt (clock : Option Nat) (s : Session) (a : Address) :
    (s.focusAt clock a).session.sheet.grid.SameSize s.sheet.grid := by
  rw [(focusAt_session clock s a).1]
  exact (sameSize_openedSheet _ a).trans (sameSize_left clock s a)

theorem focusedInside_focus (h : s.FocusedInside) (clock : Option Nat) (address : String) :
    (s.focus clock address).session.FocusedInside := by
  unfold focus
  rcases s.locate_cases address with ⟨e, -, hlocate⟩ | ⟨-, a, ha, hlocate⟩
  · rw [hlocate]
    exact h
  · rw [hlocate]
    intro e he
    obtain ⟨-, ⟨buffer, hediting⟩, -⟩ := focusAt_session clock s a
    rw [← Option.some.inj (hediting.symm.trans he)]
    exact (Grid.contains_congr (sameSize_focusAt clock s a) a).2 ha

theorem focusedInside_edit (h : s.FocusedInside) (clock : Option Nat) (address text : String) :
    (s.edit clock address text).session.FocusedInside := by
  rcases s.locate_cases address with ⟨e, -, hlocate⟩ | ⟨-, a, ha, hlocate⟩
  · rw [edit, hlocate]
    exact h
  · intro e he
    have hsize : (s.edit clock address text).session.sheet.grid.SameSize s.sheet.grid := by
      rcases edit_cases clock s address text with heq | ⟨b, -, t, e, ht, heq⟩
      · rw [heq]
        exact .refl _
      · rw [heq]
        rcases ht with ⟨-, rfl⟩ | ⟨-, rfl⟩
        · exact .refl _
        · exact sameSize_focusAt clock s b
    rw [address_of_edit hlocate he]
    exact (Grid.contains_congr hsize a).2 ha

/-- **The step lemma.** -/
theorem focusedInside_move (h : s.FocusedInside) (v : Move) : (s.move v).FocusedInside := by
  cases v with
  | fire now => exact h.of_eq (.refl _) rfl
  | resume now number reply => exact h.of_eq (.refl _) rfl
  | rewrite store => exact h.of_eq (.refl _) rfl
  | call clock c =>
    cases c with
    | load =>
      show s.load.session.FocusedInside
      rcases load_cases s with ⟨heq, -⟩ | ⟨-, -, -, -, hediting, -⟩
      · rw [heq]
        exact h
      · intro e he
        rw [hediting] at he
        cases he
    | focus address => exact focusedInside_focus h clock address
    | edit address text => exact focusedInside_edit h clock address text
    | commit address text => exact focusedInside_commit h clock address text
    | clear address => exact focusedInside_commit h clock (some address) (some "")
    | reconcile =>
      show s.reconcile.session.FocusedInside
      rcases reconcile_cases s with heq | heq
      · rw [heq]
        exact h
      · rw [heq]
        exact h.of_eq (calculated_sweep s).sameSize (editing_sweep s)
    | save =>
      show (s.save clock).session.FocusedInside
      rcases save_cases clock s with heq | heq
      · rw [heq]
        exact h
      · rw [heq]
        refine h.of_eq ?_ (editing_trigger clock s)
        rw [sheet_trigger]
        exact .refl _
    | dispose => exact h.of_eq (.refl _) rfl

theorem focusedInside_run (settings : Settings) (store : Store) (moves : List Move) :
    ((ofStore settings store).run moves).FocusedInside := by
  have hstart : (ofStore settings store).FocusedInside := by
    intro e he
    cases he
  exact run_induction hstart (fun _ v h => focusedInside_move h v) moves

/-! ## Calls -/

/-- Each call returns or is refused. -/
structure Answers (s : Session) : Prop where
  focus : ∀ clock address, s.Returns (s.refusal? (some address)) (s.focus clock address)
  edit : ∀ clock address text,
    s.Returns (s.refusal? (some address)) (s.edit clock address text)
  commit : ∀ clock address text, s.Returns (s.refusal? address) (s.commit clock address text)
  clear : ∀ clock address, s.Returns (s.refusal? (some address)) (s.clear clock address)
  focused : s.FocusedInside

/-- **Commits never fail for what is in the cells.** No evaluation and no walk lacks anything, a
commit to a sheet is answered exactly if its address names a cell, and the calls of a session are
refused for the three reasons only. Whatever is not answered changes nothing. -/
theorem calls_answered :
    (∀ e : Evaluation, e.lack? = none) ∧
      (∀ (g : Grid) (limit : Int) (a : Address) (text : String), g.commitLacks limit a text = []) ∧
      (∀ (s : Sheet) (address text : String),
        (∃ a, Address.parse address = .ok a ∧ s.grid.Contains a ∧
            s.Answers a text (s.commitNamed address text)) ∨
          ((∀ a, Address.parse address = .ok a → ¬ s.grid.Contains a) ∧
            ∃ missing, s.commitNamed address text = (s, .error missing))) ∧
      ∀ (settings : Settings) (store : Store) (moves : List Move),
        ((ofStore settings store).run moves).Answers :=
  ⟨Evaluation.lack?_eq_none, Grid.commitLacks_eq_nil, Sheet.answers_commitNamed,
    fun settings store moves =>
      ⟨returns_focus _, returns_edit _, returns_commit _,
        fun clock address => returns_commit _ clock (some address) (some ""),
        focusedInside_run settings store moves⟩⟩

end Session

end Spreadsheet
