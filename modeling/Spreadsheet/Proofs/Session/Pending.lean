import Spreadsheet.Proofs.Session.Consistency

/-!
# A change that is not saved is pending, unless it was overlooked

Inside an event loop the text of the sheet is handed to the client whenever the window of quiet
ends. A text that is not the one handed over last should therefore have a window open, unless a cell
is in error.

**Theorem (`pending_iff_not_overlooked`).** It has, in every state of every run, with one exception.
Opening a cell clears its error, and when this was the last error, the sheet may be saved again, but
no save is triggered. The change is overlooked until a save is triggered for another reason, an
error shows up, or the sheet is loaded again.

The invariant (`Watch.Accounted`) is carried from move to move by one description of them
(`move_cases`): a move that neither loads, nor opens an error, nor hands the text over leaves the
text and the window as they were, or ends with an error or an open window (`Keeps`).
-/

namespace Spreadsheet

namespace Session

variable {s t u : Session} {v : Move} {now : Nat} {a : Address}

/-! ## What a move does about saving -/

/-- Whether a move is made inside an event loop. -/
def Move.inLoop : Move → Bool
  | .call clock _ => clock.isSome
  | _ => true

/-- Whether a move loads the sheet. -/
def reloads (s : Session) : Move → Bool
  | .call _ .load => s.load.result.isOk
  | _ => false

/-- The text that a move hands to the client. A save that repeats its post hands over nothing. -/
def handed? (s : Session) : Move → Option String
  | .fire _ => s.manager.window.bind fun w => Saver.read s w.source
  | _ => none

/-- Whether a call clears the error of a cell by opening it. -/
def opensError (clock : Option Nat) (s : Session) : Call → Bool
  | .focus address =>
    match s.locate address with
    | .ok a => ((s.left clock a).cellAt a).isError
    | .error _ => false
  | .edit address _ =>
    match s.locate address with
    | .ok a => !s.isFocused a && ((s.left clock a).cellAt a).isError
    | .error _ => false
  | _ => false

/-- Whether a move clears the error of a cell by opening it. -/
def clearsError (s : Session) : Move → Bool
  | .call clock c => s.opensError clock c
  | _ => false

/-- The text that is handed over is that of a save which is created. -/
theorem saves_fire (s : Session) (now : Nat) :
    (s.move (.fire now)).manager.saves = s.manager.saves ++
      (s.handed? (.fire now)).toList.map fun data =>
        ⟨s.manager.created, none, data, .created, now⟩ := by
  show (s.manager.fire now (Saver.read s)).manager.saves = _
  have hfires := s.manager.fires_fire now (Saver.read s)
  generalize s.manager.fire now (Saver.read s) = step at hfires ⊢
  cases hfires with
  | closed hw => simp [handed?, hw]
  | saves hw hread => simp [handed?, hw, hread, Manager.create, Manager.cancelPending]
  | skips hw hread => simp [handed?, hw, hread, Manager.cancelPending]

/-! ## Moves that keep the text -/

/-- Nothing has to be pending or something is. -/
def Settled (s : Session) : Prop :=
  s.sheet.grid.hasErrors = true ∨ s.manager.window.isSome = true

/-- Two sessions have the same text to save and the same window of quiet. -/
structure Alike (s t : Session) : Prop where
  loaded : t.loaded = s.loaded
  csv : t.sheet.grid.csv = s.sheet.grid.csv
  hasErrors : t.sheet.grid.hasErrors = s.sheet.grid.hasErrors
  window : t.manager.window = s.manager.window

/-- The second session is settled, or it differs in nothing that matters to saving. -/
def Keeps (s t : Session) : Prop := t.Settled ∨ s.Alike t

theorem Alike.of_eq (hsheet : t.sheet = s.sheet) (hmanager : t.manager = s.manager)
    (hloaded : t.loaded = s.loaded) : s.Alike t :=
  ⟨hloaded, by rw [hsheet], by rw [hsheet], by rw [hmanager]⟩

/-- Sound sessions with the same values have the same text to save. -/
theorem Alike.of_sameValues (hs : s.Sound) (ht : t.Sound)
    (hvalues : t.sheet.grid.SameValues s.sheet.grid) (hmanager : t.manager = s.manager)
    (hloaded : t.loaded = s.loaded) : s.Alike t :=
  ⟨hloaded, hvalues.csv, hvalues.hasErrors ht.sheet.marked hs.sheet.marked, by rw [hmanager]⟩

theorem Alike.settled (h : s.Alike t) (hs : s.Settled) : t.Settled := by
  rcases hs with herrors | hwindow
  · exact .inl (h.hasErrors.trans herrors)
  · exact .inr (by rw [h.window, hwindow])

theorem Alike.trans (h : s.Alike t) (h' : t.Alike u) : s.Alike u :=
  ⟨h'.loaded.trans h.loaded, h'.csv.trans h.csv, h'.hasErrors.trans h.hasErrors,
    h'.window.trans h.window⟩

theorem Keeps.refl (s : Session) : s.Keeps s := .inr (.of_eq rfl rfl rfl)

theorem Keeps.alike (h : s.Keeps t) (h' : t.Alike u) : s.Keeps u := by
  rcases h with hsettled | halike
  · exact .inl (h'.settled hsettled)
  · exact .inr (halike.trans h')

/-- Inside an event loop a trigger leaves the session settled. -/
theorem settled_trigger (now : Nat) (s : Session) : (s.trigger (some now)).session.Settled := by
  cases h : s.sheet.grid.hasErrors with
  | true =>
    rw [trigger_of_hasErrors h]
    exact .inl h
  | false =>
    rw [trigger_of_not_hasErrors h]
    exact .inr rfl

/-- A sweep without deltas leaves all values as they were. -/
theorem sameValues_sweep (h : s.sweep.2.changed = false) :
    s.sweep.1.sheet.grid.SameValues s.sheet.grid := by
  cases hediting : s.editing with
  | none =>
    rw [sweep_of_not_focused hediting] at h ⊢
    exact Sheet.sameValues_reconcile h
  | some e =>
    rw [sweep_of_focused hediting]
    exact .refl _

/-- A commit that changes what a cell shows starts the window of quiet. -/
theorem keeps_commitAt (h : s.Sound) (now : Nat) (a : Address) (text : String) :
    s.Keeps (s.commitAt (some now) a text).session := by
  have hsound := h.commitAt (some now) a text
  have hloaded := loaded_commitAt (some now) s a text
  have hsheet := sheet_commitAt (some now) s a text
  have hsession := session_commitAt (some now) s a text
  generalize (s.commitAt (some now) a text).session = t at hsound hloaded hsheet hsession ⊢
  cases hchanged : (s.sheet.commit a text).2.changed || (s.entered a text).sweep.2.changed with
  | true =>
    rw [hsession, if_pos hchanged]
    exact .inl (settled_trigger now _)
  | false =>
    rw [if_neg (by simp [hchanged])] at hsession
    obtain ⟨hcommit, hsweep⟩ := Bool.or_eq_false_iff.1 hchanged
    have hentered : (s.entered a text).sheet.grid.SameValues s.sheet.grid := by
      rw [sheet_entered]
      exact Sheet.sameValues_commit hcommit
    have hvalues : t.sheet.grid.SameValues s.sheet.grid := by
      rw [hsheet]
      exact (sameValues_sweep hsweep).trans hentered
    have hmanager : t.manager = s.manager := by
      rw [hsession, manager_persist, manager_sweep, manager_entered]
    exact .inr (.of_sameValues h hsound hvalues hmanager hloaded)

theorem keeps_commit (h : s.Sound) (now : Nat) (address text : Option String) :
    s.Keeps (s.commit (some now) address text).session := by
  rcases commit_cases (some now) s address text with ⟨e, -, heq⟩ | ⟨a, value, -, heq⟩
  · rw [heq]
    exact .refl s
  · rw [heq]
    exact keeps_commitAt h now a value

theorem keeps_left (h : s.Sound) (now : Nat) (a : Address) : s.Keeps (s.left (some now) a) := by
  rcases left_cases (some now) s a with heq | ⟨e, -, heq⟩
  · rw [heq]
    exact .refl s
  · rw [heq]
    exact keeps_commitAt h now e.address e.buffer

/-- Opening a cell that is not in error changes nothing that matters to saving. -/
theorem keeps_focusAt (h : s.Sound) (herror : ((s.left (some now) a).cellAt a).isError = false) :
    s.Keeps (s.focusAt (some now) a).session := by
  obtain ⟨hsheet, -, hmanager, hloaded⟩ := focusAt_session (some now) s a
  refine (keeps_left h now a).alike (.of_eq ?_ hmanager hloaded)
  rw [hsheet, openedSheet, herror]
  rfl

theorem keeps_focus {address : String} (h : s.Sound)
    (herror : s.opensError (some now) (.focus address) = false) :
    s.Keeps (s.focus (some now) address).session := by
  rcases focus_cases (some now) s address with heq | ⟨a, hlocate, heq⟩
  · rw [heq]
    exact .refl s
  · rw [heq]
    refine keeps_focusAt h ?_
    simpa only [opensError, hlocate] using herror

theorem keeps_edit {address text : String} (h : s.Sound)
    (herror : s.opensError (some now) (.edit address text) = false) :
    s.Keeps (s.edit (some now) address text).session := by
  rcases edit_cases (some now) s address text with heq | ⟨a, hlocate, t, e, ht, heq⟩
  · rw [heq]
    exact .refl s
  · rw [heq]
    have hkeeps : s.Keeps t := by
      rcases ht with ⟨-, rfl⟩ | ⟨hfocused, rfl⟩
      · exact .refl t
      · refine keeps_focusAt h ?_
        simpa only [opensError, hlocate, hfocused, Bool.not_false, Bool.true_and] using herror
    exact hkeeps.alike (.of_eq rfl rfl rfl)

theorem keeps_reconcile (h : s.Sound) : s.Keeps s.reconcile.session := by
  rcases reconcile_cases s with heq | heq
  · rw [heq]
    exact .refl s
  · have hsound := sound_sweep h.sheet
    rw [heq]
    cases hediting : s.editing with
    | none =>
      rw [sweep_of_not_focused hediting] at hsound ⊢
      have hvalues := Sheet.sameValues_reconcile_of_current (h.current hediting)
      exact .inr (.of_sameValues h hsound hvalues rfl rfl)
    | some e =>
      rw [sweep_of_focused hediting]
      exact .refl s

theorem keeps_save (now : Nat) (s : Session) : s.Keeps (s.save (some now)).session := by
  rcases save_cases (some now) s with heq | heq
  · rw [heq]
    exact .refl s
  · rw [heq]
    exact .inl (settled_trigger now s)

/-! ## One description of all moves -/

/-- The end of the window of quiet hands the text over, unless a cell is in error. -/
theorem fire_cases (s : Session) (now : Nat) :
    s.handed? (.fire now) = some (s.move (.fire now)).sheet.grid.csv ∨
      (s.handed? (.fire now) = none ∧ s.Keeps (s.move (.fire now))) := by
  cases hwindow : s.manager.window with
  | none =>
    have hsame : s.move (.fire now) = s := by
      simp only [move, Manager.move, Manager.fire, hwindow]
    rw [hsame]
    exact .inr ⟨by simp only [handed?, hwindow, Option.bind_none], .refl s⟩
  | some w =>
    cases herrors : s.sheet.grid.hasErrors with
    | true =>
      have hread : Saver.read s w.source = none := by simp only [Saver.read, herrors, if_true]
      exact .inr ⟨by simp only [handed?, hwindow, Option.bind_some, hread], .inl (.inl herrors)⟩
    | false =>
      left
      simp [handed?, hwindow, Saver.read, herrors, move]

/-- **What a move does to the text to save.** It loads the sheet, or opens an error, or leaves the
session not loaded, or hands the text over, or keeps it. -/
theorem move_cases (h : s.Sound) (hv : v.inLoop = true) :
    s.reloads v = true ∨ s.clearsError v = true ∨ (s.move v).loaded = false ∨
      s.handed? v = some (s.move v).sheet.grid.csv ∨
      (s.handed? v = none ∧ s.Keeps (s.move v)) := by
  have keeps : s.handed? v = none → s.Keeps (s.move v) →
      s.reloads v = true ∨ s.clearsError v = true ∨ (s.move v).loaded = false ∨
        s.handed? v = some (s.move v).sheet.grid.csv ∨
        (s.handed? v = none ∧ s.Keeps (s.move v)) :=
    fun hnone hkeeps => .inr (.inr (.inr (.inr ⟨hnone, hkeeps⟩)))
  cases v with
  | call clock c =>
    obtain ⟨now, rfl⟩ := Option.isSome_iff_exists.1 hv
    cases c with
    | load =>
      rcases load_cases s with ⟨heq, -⟩ | ⟨-, -, ⟨g, hg⟩, -⟩
      · exact keeps rfl (by rw [move, call, heq]; exact .refl s)
      · exact .inl (by rw [reloads, hg]; rfl)
    | focus address =>
      cases herror : s.opensError (some now) (.focus address) with
      | true => exact .inr (.inl herror)
      | false => exact keeps rfl (keeps_focus h herror)
    | edit address text =>
      cases herror : s.opensError (some now) (.edit address text) with
      | true => exact .inr (.inl herror)
      | false => exact keeps rfl (keeps_edit h herror)
    | commit address text => exact keeps rfl (keeps_commit h now address text)
    | clear address => exact keeps rfl (keeps_commit h now (some address) (some ""))
    | reconcile => exact keeps rfl (keeps_reconcile h)
    | save => exact keeps rfl (keeps_save now s)
    | dispose => exact .inr (.inr (.inl rfl))
  | fire now => exact .inr (.inr (.inr (fire_cases s now)))
  | resume now number reply =>
    exact keeps rfl (.inr ⟨rfl, rfl, rfl, s.manager.window_resume now number reply⟩)
  | rewrite store => exact keeps rfl (.inr (.of_eq rfl rfl rfl))

/-! ## Watching a run -/

/-- A session, the text handed over last, and whether a change was overlooked. -/
structure Watch where
  session : Session
  /-- The text after the last load, if none was handed over since. -/
  handed : String
  /-- Whether opening a cell cleared the last error, and neither an open window nor an error has
  been seen since. -/
  overlooked : Bool

namespace Watch

/-- A session that is watched from now on. -/
def start (s : Session) : Watch := ⟨s, s.sheet.grid.csv, false⟩

/-- A load is a new start. -/
def move (w : Watch) (v : Move) : Watch :=
  if w.session.reloads v then start (w.session.move v)
  else
    { session := w.session.move v
      handed := (w.session.handed? v).getD w.handed
      overlooked := (w.overlooked || w.session.clearsError v) &&
        !(w.session.move v).sheet.grid.hasErrors && (w.session.move v).manager.window.isNone }

/-- The watch after moves in order. -/
def run (w : Watch) (moves : List Move) : Watch := moves.foldl move w

variable {w : Watch}

theorem session_move (w : Watch) (v : Move) : (w.move v).session = w.session.move v := by
  unfold move
  split <;> rfl

theorem session_run (w : Watch) (moves : List Move) :
    (w.run moves).session = w.session.run moves := by
  induction moves generalizing w with
  | nil => rfl
  | cons v moves ih => exact (ih (w.move v)).trans (by rw [session_move]; rfl)

/-- The text is not the one that was handed over last, and it could be saved. -/
structure Unsaved (w : Watch) : Prop where
  loaded : w.session.loaded = true
  noErrors : w.session.sheet.grid.hasErrors = false
  differs : w.session.sheet.grid.csv ≠ w.handed

/-- An unsaved text is pending or was overlooked, and not both. -/
structure Accounted (w : Watch) : Prop where
  sound : w.session.Sound
  overlooked_of_unsaved : w.Unsaved → w.session.manager.window = none → w.overlooked = true
  not_pending : w.overlooked = true → w.session.manager.window = none

theorem accounted_start (h : s.Sound) : (start s).Accounted :=
  ⟨h, fun hunsaved _ => absurd rfl hunsaved.differs, fun hoverlooked => by cases hoverlooked⟩

theorem Accounted.move (h : w.Accounted) (hv : v.inLoop = true) : (w.move v).Accounted := by
  have hsound := h.sound.move v
  cases hreloads : w.session.reloads v with
  | true =>
    unfold Watch.move
    rw [if_pos hreloads]
    exact accounted_start hsound
  | false =>
    unfold Watch.move
    rw [if_neg (by simp [hreloads])]
    refine ⟨hsound, fun ⟨hloaded, herrors, hdiffers⟩ hwindow => ?_, fun hoverlooked => ?_⟩
    · dsimp only at hloaded herrors hdiffers hwindow ⊢
      -- What is left to show is that it was overlooked before or is overlooked by this move.
      rw [herrors, hwindow, Option.isNone_none, Bool.not_false, Bool.and_true, Bool.and_true]
      rcases move_cases h.sound hv with hreload | hclears | hdisposed | hhanded | ⟨hnone, hkeeps⟩
      · rw [hreloads] at hreload
        cases hreload
      · rw [hclears, Bool.or_true]
      · rw [hloaded] at hdisposed
        cases hdisposed
      · rw [hhanded] at hdiffers
        exact absurd rfl hdiffers
      · rcases hkeeps with (hsettled | hsettled) | halike
        · rw [herrors] at hsettled
          cases hsettled
        · rw [hwindow] at hsettled
          cases hsettled
        · rw [hnone] at hdiffers
          have hbefore : w.Unsaved :=
            ⟨halike.loaded.symm.trans hloaded, halike.hasErrors.symm.trans herrors,
              halike.csv ▸ hdiffers⟩
          rw [h.overlooked_of_unsaved hbefore (halike.window.symm.trans hwindow), Bool.true_or]
    · dsimp only at hoverlooked ⊢
      exact Option.isNone_iff_eq_none.1 (Bool.and_eq_true_iff.1 hoverlooked).2

theorem Accounted.run (h : w.Accounted) {moves : List Move}
    (hmoves : ∀ v ∈ moves, v.inLoop = true) : (w.run moves).Accounted := by
  induction moves generalizing w with
  | nil => exact h
  | cons v moves ih =>
    exact ih (h.move (hmoves v List.mem_cons_self))
      fun u hu => hmoves u (List.mem_cons_of_mem v hu)

end Watch

/-! ## Pending saves -/

/-- A session that is watched once some moves were made, such as a load. -/
def watched (settings : Settings) (store : Store) (before later : List Move) : Watch :=
  (Watch.start ((ofStore settings store).run before)).run later

/-- **An unsaved text is pending unless it was overlooked.** Only what is done while the session is
watched has to be done inside an event loop. -/
theorem pending_iff_not_overlooked (settings : Settings) (store : Store) (before later : List Move)
    (hlater : ∀ v ∈ later, v.inLoop = true)
    (hunsaved : (watched settings store before later).Unsaved) :
    (watched settings store before later).session.manager.window.isSome = true ↔
      (watched settings store before later).overlooked = false := by
  have haccounted : (watched settings store before later).Accounted :=
    (Watch.accounted_start (sound_run settings store before)).run hlater
  generalize watched settings store before later = w at haccounted hunsaved ⊢
  constructor
  · intro hpending
    cases hoverlooked : w.overlooked with
    | false => rfl
    | true =>
      rw [haccounted.not_pending hoverlooked] at hpending
      cases hpending
  · intro hoverlooked
    cases hwindow : w.session.manager.window with
    | some window => rfl
    | none =>
      rw [haccounted.overlooked_of_unsaved hunsaved hwindow] at hoverlooked
      cases hoverlooked

/-! ## An overlooked change -/

/-- A sheet of one cell. -/
def oneCell : Settings where
  rows := 1
  columns := 1
  rows_pos := by decide
  columns_pos := by decide
  columns_le := by decide

/-- A file in which the cell holds a number. -/
def storedFive : Store :=
  (Store.ofPath "grid.json").holding
    (Snapshot.toJson [(⟨0, 0⟩, "5", none)]).render.toUTF8.toList

/-- A text that is no literal replaces the number, and its error goes when the cell is opened. -/
def emptied : List Move :=
  [.call (some 0) (.commit (some "A1") (some "abc")), .call (some 0) (.focus "A1")]

/-- Leaving the emptied cell, which changes nothing any more. -/
def leaving : Move := .call (some 0) (.commit none none)

theorem unsaved_emptied :
    (watched oneCell storedFive [.call (some 0) .load] (emptied ++ [leaving])).Unsaved :=
  ⟨by decide +kernel, by decide +kernel, by decide +kernel⟩

/-- The cell is empty, the text handed over last is the number, and nothing is pending. -/
theorem emptied_overlooked :
    (watched oneCell storedFive [.call (some 0) .load]
        (emptied ++ [leaving])).session.manager.window.isSome = true ↔
      (watched oneCell storedFive [.call (some 0) .load] (emptied ++ [leaving])).overlooked =
        false :=
  pending_iff_not_overlooked oneCell storedFive [.call (some 0) .load] (emptied ++ [leaving])
    (by decide) unsaved_emptied

/-- Not every unsaved text is pending, not even right after a commit that leaves nothing focused. -/
theorem unsaved_not_pending :
    ¬ ∀ (settings : Settings) (store : Store) (before later : List Move) (now : Nat)
      (address text : Option String), (∀ v ∈ later, v.inLoop = true) →
      ((watched settings store (before ++ [.call (some now) .load]) later).session.commit
        (some now) address text).result.isOk = true →
      (watched settings store (before ++ [.call (some now) .load])
        (later ++ [.call (some now) (.commit address text)])).session.editing = none →
      (watched settings store (before ++ [.call (some now) .load])
        (later ++ [.call (some now) (.commit address text)])).Unsaved →
      (watched settings store (before ++ [.call (some now) .load])
        (later ++ [.call (some now) (.commit address text)])).session.manager.window.isSome =
          true := by
  intro h
  have hpending := h oneCell storedFive [] emptied 0 none none (by decide) (by decide +kernel)
    (by decide +kernel) unsaved_emptied
  have hnone : (watched oneCell storedFive [.call (some 0) .load]
      (emptied ++ [leaving])).session.manager.window.isSome = false := by
    decide +kernel
  exact absurd (hnone.symm.trans hpending) (by decide)

end Session

end Spreadsheet
