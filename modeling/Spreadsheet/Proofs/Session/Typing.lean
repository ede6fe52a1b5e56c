import Spreadsheet.Proofs.Session.Recovery

/-!
# What is typed is committed

An edit that is accepted leaves a text in the buffer of a cell. The text is lost if anything else
gets into the buffer before it is committed.

**Theorem (`typed_until_ended`).** The text stays in the buffer until a call ends the typing in the
cell, and no other call does anything to it. If the cell is committed without another text, or
another cell is focused or edited, the text that was typed is committed.

Focusing the cell itself ends the typing too: the buffer is filled from the cell anew, and the text
is gone (`typed_lost`).
-/

namespace Spreadsheet

/-- A call that is made after another one, with what could be seen of both. -/
def Outcome.andThen {α β : Type} (done : Outcome α) (next : Session → Outcome β) : Outcome β :=
  let after := next done.session
  { after with effects := done.effects ++ after.effects }

namespace Session

variable {s : Session} {clock : Option Nat} {a b : Address} {address text : String} {v : Move}

/-! ## The end of the typing -/

/-- Whether a call ends the typing in a cell: it replaces the text, commits the cell, opens it or
another one, or loads the sheet. A call that fails does not. -/
def endsTyping (s : Session) (a : Address) : Call → Bool
  | .load => s.load.result.isOk
  | .focus address => (s.locate address).isOk
  | .edit address text =>
    match s.locate address with
    | .ok b => b != a || accepts text
    | .error _ => false
  | .commit address _ => (s.target address).toOption == some a
  | .clear address => (s.locate address).toOption == some a
  | .reconcile | .save | .dispose => false

/-- Whether a move leaves the typing in a cell alone. -/
def leavesTyping (s : Session) (a : Address) : Move → Bool
  | .call _ c => !s.endsTyping a c
  | _ => true

/-- Whether the typing in a cell goes on for all of the moves. -/
def keepsTyping (a : Address) : Session → List Move → Bool
  | _, [] => true
  | s, v :: moves => s.leavesTyping a v && keepsTyping a (s.move v) moves

/-- What the calls that end the typing of a text in a cell do. -/
structure TypingEnds (s : Session) (a : Address) (text : String) : Prop where
  /-- A commit of the cell without a text is one with the text that was typed. -/
  committed : ∀ clock address, s.target address = .ok a →
    s.commit clock address none = s.commit clock none (some text)
  /-- Before another cell is focused, the text is committed. -/
  focused : ∀ clock address b, s.locate address = .ok b → b ≠ a →
    s.focus clock address =
      (s.commit clock none (some text)).andThen fun t => t.focus clock address
  /-- Before another cell is edited, the text is committed. -/
  edited : ∀ clock address b new, s.locate address = .ok b → b ≠ a →
    s.edit clock address new =
      (s.commit clock none (some text)).andThen fun t => t.edit clock address new
  /-- An edit of the cell that is accepted replaces the text. -/
  retyped : ∀ clock address new, s.locate address = .ok a → accepts new = true →
    s.edit clock address new = ⟨{ s with editing := some ⟨a, new⟩ }, [], .ok true⟩
  /-- Focusing the cell itself fills the buffer from the cell. -/
  reopened : ∀ clock address, s.locate address = .ok a →
    (s.focus clock address).result = .ok (opened (s.cellAt a)).2 ∧
      (s.focus clock address).session.editing = some ⟨a, (opened (s.cellAt a)).2⟩
  /-- Once the cell is committed, also with another text, no cell is focused. -/
  unfocused : ∀ clock address new, s.target address = .ok a →
    (s.commit clock address new).session.editing = none
  /-- Once the sheet is loaded, no cell is focused. -/
  loaded : ∀ g, s.load.result = .ok g → s.load.session.editing = none

/-! ## Until the typing ends -/

/-- A commit that is not for the cell keeps the buffer. -/
theorem editing_commit_of_ne (hediting : s.editing = some ⟨a, text⟩)
    (address new : Option String) (hends : ((s.target address).toOption == some a) = false) :
    (s.commit clock address new).session.editing = some ⟨a, text⟩ := by
  rcases commit_cases clock s address new with ⟨-, -, heq⟩ | ⟨b, value, htarget, heq⟩
  · rw [heq, hediting]
  · have hne : b ≠ a := by
      rintro rfl
      rw [htarget] at hends
      simp [Except.toOption] at hends
    have hfocused : ¬ s.isFocused b = true := by simp [isFocused_of_ne hediting hne]
    rw [heq, editing_commitAt, leave, if_neg hfocused, hediting]

/-- An edit that does not end the typing in a cell is refused or not accepted. -/
theorem editing_edit_of_not_ends (hediting : s.editing = some ⟨a, text⟩) {new : String}
    (hends : s.endsTyping a (.edit address new) = false) :
    (s.edit clock address new).session = s := by
  cases hlocate : s.locate address with
  | error e => rw [edit_of_error hlocate]
  | ok b =>
    simp only [endsTyping, hlocate] at hends
    obtain ⟨hb, haccepts⟩ := Bool.or_eq_false_iff.1 hends
    obtain rfl : b = a := by simpa using hb
    rw [edit_of_focused hlocate (isFocused_of_editing hediting), haccepts]
    rfl

/-- **The step lemma.** -/
theorem editing_move (hediting : s.editing = some ⟨a, text⟩) (hv : s.leavesTyping a v = true) :
    (s.move v).editing = some ⟨a, text⟩ := by
  cases v with
  | fire now => exact hediting
  | resume now number reply => exact hediting
  | rewrite store => exact hediting
  | call clock c =>
    have hends : s.endsTyping a c = false := by simpa [leavesTyping] using hv
    cases c with
    | load =>
      rcases load_cases s with ⟨heq, -⟩ | ⟨-, -, ⟨g, hg⟩, -⟩
      · exact (congrArg Session.editing heq).trans hediting
      · rw [endsTyping, hg] at hends
        cases hends
    | focus address =>
      rcases focus_cases clock s address with heq | ⟨b, hlocate, -⟩
      · exact (congrArg Session.editing heq).trans hediting
      · rw [endsTyping, hlocate] at hends
        cases hends
    | edit address new =>
      exact (congrArg Session.editing (editing_edit_of_not_ends hediting hends)).trans hediting
    | commit address new => exact editing_commit_of_ne hediting address new hends
    | clear address => exact editing_commit_of_ne hediting (some address) (some "") hends
    | reconcile =>
      rcases reconcile_cases s with heq | heq
      · exact (congrArg Session.editing heq).trans hediting
      · exact (congrArg Session.editing heq).trans ((editing_sweep s).trans hediting)
    | save =>
      rcases save_cases clock s with heq | heq
      · exact (congrArg Session.editing heq).trans hediting
      · exact (congrArg Session.editing heq).trans ((editing_trigger clock s).trans hediting)
    | dispose => exact hediting

/-- **The run lemma.** -/
theorem editing_run (hediting : s.editing = some ⟨a, text⟩) {moves : List Move}
    (hmoves : keepsTyping a s moves = true) : (s.run moves).editing = some ⟨a, text⟩ := by
  induction moves generalizing s with
  | nil => exact hediting
  | cons v moves ih =>
    obtain ⟨hv, hrest⟩ := Bool.and_eq_true_iff.1 hmoves
    exact ih (editing_move hediting hv) hrest

/-! ## When the typing ends -/

theorem loaded_of_locate (h : s.locate address = .ok a) : s.loaded = true := by
  by_contra hloaded
  rw [locate, if_neg hloaded] at h
  cases h

theorem target_of_editing (hediting : s.editing = some ⟨a, text⟩) (hloaded : s.loaded = true) :
    s.target none = .ok a := by
  rw [target, if_pos hloaded, hediting]

theorem textAt_of_editing (hediting : s.editing = some ⟨a, text⟩) : s.textAt a = text := by
  rw [textAt, hediting]
  exact if_pos rfl

/-- After a commit the texts name the cells that they named before. -/
theorem locate_commitAt (clock : Option Nat) (s : Session) (a : Address) (text address : String) :
    (s.commitAt clock a text).session.locate address = s.locate address := by
  unfold locate Grid.locate
  rw [loaded_commitAt]
  simp only [Grid.contains_congr (sameSize_commitAt clock s a text)]

/-- The commit of what was typed, as a call without an address. -/
theorem commit_typed (hediting : s.editing = some ⟨a, text⟩) (hloaded : s.loaded = true)
    (clock : Option Nat) :
    s.commit clock none (some text) =
      ⟨(s.commitAt clock a text).session, (s.commitAt clock a text).effects,
        .ok (s.commitAt clock a text).result⟩ := by
  unfold commit
  rw [target_of_editing hediting hloaded]
  rfl

/-- Another cell is focused in the session that the commit of what was typed leaves. -/
theorem focusAt_of_ne (hediting : s.editing = some ⟨a, text⟩) (hne : b ≠ a)
    (clock : Option Nat) :
    s.focusAt clock b =
      ⟨((s.commitAt clock a text).session.focusAt clock b).session,
        (s.commitAt clock a text).effects ++
          ((s.commitAt clock a text).session.focusAt clock b).effects,
        ((s.commitAt clock a text).session.focusAt clock b).result⟩ := by
  have hleft : s.leaveOther clock b =
      ((s.commitAt clock a text).session, (s.commitAt clock a text).effects) :=
    leaveOther_of_ne hediting hne.symm clock
  have hnone : (s.commitAt clock a text).session.editing = none :=
    editing_commitAt_of_isFocused (isFocused_of_editing hediting)
  -- No cell is focused after the commit, so none is left a second time.
  have hstays : (s.commitAt clock a text).session.leaveOther clock b =
      ((s.commitAt clock a text).session, []) :=
    leaveOther_of_none hnone clock b
  unfold focusAt
  rw [hleft, hstays]
  dsimp only
  rw [List.nil_append]

theorem focus_of_ne (hediting : s.editing = some ⟨a, text⟩) (hlocate : s.locate address = .ok b)
    (hne : b ≠ a) (clock : Option Nat) :
    s.focus clock address =
      (s.commit clock none (some text)).andThen fun t => t.focus clock address := by
  rw [commit_typed hediting (loaded_of_locate hlocate)]
  unfold focus Outcome.andThen
  simp only [locate_commitAt, hlocate]
  rw [focusAt_of_ne hediting hne]

theorem edit_of_ne (hediting : s.editing = some ⟨a, text⟩) (hlocate : s.locate address = .ok b)
    (hne : b ≠ a) (clock : Option Nat) (new : String) :
    s.edit clock address new =
      (s.commit clock none (some text)).andThen fun t => t.edit clock address new := by
  have hother : s.isFocused b = false := isFocused_of_ne hediting hne
  have hnone : (s.commitAt clock a text).session.isFocused b = false := by
    rw [isFocused, editing_commitAt_of_isFocused (isFocused_of_editing hediting)]
    rfl
  have hlater := (locate_commitAt clock s a text address).trans hlocate
  rw [commit_typed hediting (loaded_of_locate hlocate), edit_of_not_focused hlocate hother,
    focusAt_of_ne hediting hne, Outcome.andThen, edit_of_not_focused hlater hnone]

/-- **What becomes of the text** when the typing ends. -/
theorem typingEnds (hediting : s.editing = some ⟨a, text⟩) : s.TypingEnds a text where
  committed clock address htarget := by
    have hloaded : s.loaded = true := by
      by_contra hloaded
      rw [target_of_not_loaded (by simpa using hloaded)] at htarget
      cases htarget
    rw [commit_typed hediting hloaded, commit, htarget, ← textAt_of_editing hediting]
    rfl
  focused clock address b hlocate hne := focus_of_ne hediting hlocate hne clock
  edited clock address b new hlocate hne := edit_of_ne hediting hlocate hne clock new
  retyped clock address new hlocate haccepts := by
    rw [edit_of_focused hlocate (isFocused_of_editing hediting), if_pos haccepts, haccepts]
  reopened clock address hlocate := by
    obtain ⟨hresult, hbuffer⟩ := focusAt_buffer clock s a
    rw [left_of_isFocused (isFocused_of_editing hediting)] at hresult hbuffer
    unfold focus
    rw [hlocate]
    exact ⟨congrArg Except.ok hresult, hbuffer⟩
  unfocused clock address new htarget := by
    unfold commit
    rw [htarget]
    dsimp only
    exact editing_commitAt_of_isFocused (isFocused_of_editing hediting)
  loaded g hg := by
    rcases load_cases s with ⟨-, e, he⟩ | ⟨-, -, -, -, hnone, -⟩
    · rw [hg] at he
      cases he
    · exact hnone

/-! ## Typing -/

/-- An edit that is accepted leaves its text in the buffer. -/
theorem editing_edit (h : (s.edit clock address text).result = .ok true) :
    ∃ a, s.locate address = .ok a ∧
      (s.edit clock address text).session.editing = some ⟨a, text⟩ := by
  cases hlocate : s.locate address with
  | error e =>
    rw [edit_of_error hlocate] at h
    cases h
  | ok a =>
    refine ⟨a, rfl, ?_⟩
    rw [result_edit hlocate] at h
    have haccepts : accepts text = true := Except.ok.inj h
    cases hfocused : s.isFocused a with
    | true => rw [edit_of_focused hlocate hfocused, if_pos haccepts]
    | false => rw [edit_of_not_focused hlocate hfocused, if_pos haccepts]

/-- **What is typed is committed.** Once an edit was accepted, its text stands in the buffer of the
cell until a call ends the typing there. Of the calls that do, those that give no other text commit
the one that was typed, but for focusing the cell itself and loading. -/
theorem typed_until_ended (h : (s.edit clock address text).result = .ok true) :
    ∃ a, s.locate address = .ok a ∧
      ∀ moves, keepsTyping a (s.edit clock address text).session moves = true →
        ((s.edit clock address text).session.run moves).editing = some ⟨a, text⟩ ∧
          ((s.edit clock address text).session.run moves).TypingEnds a text := by
  obtain ⟨a, hlocate, hediting⟩ := editing_edit h
  refine ⟨a, hlocate, fun moves hmoves => ?_⟩
  have hkept := editing_run hediting hmoves
  exact ⟨hkept, typingEnds hkept⟩

/-- A sheet of one cell, with a number in it. -/
def numberLoaded : Session := (ofStore oneCell storedFive).run [.call (some 0) .load]

/-- A text that is not accepted, a save, a sweep and the end of the window of quiet. -/
def meanwhile : List Move :=
  [.call (some 0) (.edit "A1" "7x"), .call (some 0) .save, .call (some 0) .reconcile, .fire 1000]

theorem typed_meanwhile :
    (numberLoaded.edit (some 0) "A1" "7").result = .ok true ∧
      ∃ a, numberLoaded.locate "A1" = .ok a ∧
        keepsTyping a (numberLoaded.edit (some 0) "A1" "7").session meanwhile = true ∧
        ((numberLoaded.edit (some 0) "A1" "7").session.run meanwhile).editing = some ⟨a, "7"⟩ ∧
        ((numberLoaded.edit (some 0) "A1" "7").session.run meanwhile).TypingEnds a "7" := by
  have haccepted : (numberLoaded.edit (some 0) "A1" "7").result = .ok true := by decide +kernel
  have hfirst : numberLoaded.locate "A1" = .ok ⟨0, 0⟩ := by decide +kernel
  have hkeeps : keepsTyping ⟨0, 0⟩ (numberLoaded.edit (some 0) "A1" "7").session meanwhile =
      true := by
    decide +kernel
  obtain ⟨a, hlocate, hkept⟩ := typed_until_ended haccepted
  obtain rfl := Except.ok.inj (hfirst.symm.trans hlocate)
  exact ⟨haccepted, _, hlocate, hkeeps, hkept meanwhile hkeeps⟩

/-- A text that was typed is lost if its cell is focused again. -/
theorem typed_lost :
    ¬ ∀ (settings : Settings) (store : Store) (moves : List Move) (clock : Option Nat)
        (address text : String),
      (((ofStore settings store).run moves).edit clock address text).result = .ok true →
      ((((ofStore settings store).run moves).edit clock address text).session.focus clock
        address).session.editingText = text := by
  intro h
  have hkept := h oneCell storedFive [.call (some 0) .load] (some 0) "A1" "7" (by decide +kernel)
  have hfive : ((((ofStore oneCell storedFive).run [.call (some 0) .load]).edit (some 0) "A1"
      "7").session.focus (some 0) "A1").session.editingText = "5" := by
    decide +kernel
  rw [hfive] at hkept
  exact absurd hkept (by decide)

end Session

end Spreadsheet
