import Spreadsheet.Proofs.Recalculation.Behind
import Spreadsheet.Proofs.Session.Posting
import Spreadsheet.Proofs.Sheet.History

/-!
# What is posted is right, but for what was touched since the last sweep

The text of a sheet is handed to the client if no cell is in error. While a cell is focused, this
does not yet mean that every formula shows a number that is right: the sheet is not swept then, so a
cell that was committed meanwhile may have left others behind, and a focused cell whose error was
cleared shows nothing.

**Theorem (`posted_right`).** Every text that a session posts is that of its sheet when a window of
quiet ended and no cell was in error. If no cell was focused then, every formula evaluated to a
number and its cell showed this number. If one was, the same held of every formula cell, but for the
focused one if its error was cleared, and for those that lead to a cell committed since the last
sweep and were left behind by such a commit (`Grid.stillBehind`): it evaluated a cell that they led
to, which was in error then or had recovered unseen, and they were not evaluated since.

A cleared cell is posted blank (`blank_posted`).

The invariant (`Unswept.Inv`) adds what was touched to the soundness of sessions. A move that leaves
a cell focused does nothing to the sheet, or commits another cell, or opens one (`focused_cases`).
-/

namespace Spreadsheet

namespace Session

variable {s : Session} {v : Move} {clock : Option Nat} {a : Address} {e : Editing}
  {committed cleared : List Address} {behind : Address → Prop}

/-! ## Opening a cell -/

/-- Opening a cell changes nothing, or it clears an error of a cell of the grid. -/
theorem openedSheet_cases (s : Session) (a : Address) :
    (s.cellAt a).isError = false ∧ s.openedSheet a = s.sheet ∨
      (s.cellAt a).isError = true ∧ s.sheet.grid.get? a = some (s.cellAt a) ∧
        s.openedSheet a = { s.sheet with grid := s.sheet.grid.set a (opened (s.cellAt a)).1 } := by
  unfold openedSheet
  cases herror : (s.cellAt a).isError with
  | false => exact .inl ⟨rfl, rfl⟩
  | true =>
    refine .inr ⟨rfl, ?_, rfl⟩
    unfold cellAt at herror ⊢
    cases hc : s.sheet.grid.get? a with
    | none =>
      rw [hc] at herror
      cases herror
    | some c => rfl

/-- An opened cell is one cell more whose error was cleared, if it was in error. -/
theorem currentBut_openedSheet (hs : s.sheet.Sound)
    (h : s.sheet.grid.CurrentBut committed cleared) (a : Address) :
    (s.openedSheet a).grid.CurrentBut committed
      ((if (s.cellAt a).isError then [a] else []) ++ cleared) := by
  rcases s.openedSheet_cases a with ⟨herror, heq⟩ | ⟨herror, hcell, heq⟩
  · rw [heq, herror]
    exact h
  · rw [heq, if_pos herror]
    exact h.clear hs.marked hcell herror (formula_opened _)

theorem currentUnless_openedSheet (hs : s.sheet.Sound)
    (h : s.sheet.grid.CurrentUnless behind cleared) (a : Address) :
    (s.openedSheet a).grid.CurrentUnless behind
      ((if (s.cellAt a).isError then [a] else []) ++ cleared) := by
  rcases s.openedSheet_cases a with ⟨herror, heq⟩ | ⟨herror, hcell, heq⟩
  · rw [heq, herror]
    exact h
  · rw [heq, if_pos herror]
    exact h.clear hs.marked hcell herror (formula_opened _)

/-- What is handed to the client is the text of a sheet in which no cell is in error. -/
theorem of_handed? {now : Nat} {data : String} (h : s.handed? (.fire now) = some data) :
    data = s.sheet.grid.csv ∧ s.sheet.grid.hasErrors = false := by
  simp only [handed?, Saver.read] at h
  obtain ⟨window, -, hread⟩ := Option.bind_eq_some_iff.1 h
  cases herrors : s.sheet.grid.hasErrors with
  | true =>
    rw [herrors, if_pos rfl] at hread
    cases hread
  | false =>
    rw [herrors, if_neg (by decide)] at hread
    exact ⟨(Option.some.inj hread).symm, rfl⟩

/-! ## Limits -/

/-- No commit of a session is stopped by its limit. -/
theorem sheetInvariant_limit :
    SheetInvariant fun t => (t.grid.size : Int) ≤ t.depthLimit where
  ofGrid g := Int.le_refl _
  commit t a text h := by
    obtain ⟨hrows, hcolumns⟩ := Sheet.sameSize_commit t a text
    rw [Grid.size, hrows, hcolumns, Sheet.commit_eq]
    exact h
  reconcile t h := by
    obtain ⟨hrows, hcolumns⟩ := (Sheet.calculated_reconcile t).sameSize
    rw [Grid.size, hrows, hcolumns, Sheet.depthLimit_reconcile]
    exact h
  set t a c h := by
    rw [Grid.size_set]
    exact h

/-! ## Moves that leave a cell focused -/

/-- The cell that a move commits, and the text. Leaving a cell for another one does not count. -/
def commits? (s : Session) : Move → Option (Address × String)
  | .call _ (.commit address text) =>
    (s.target address).toOption.map fun a => (a, text.getD (s.textAt a))
  | .call _ (.clear address) => (s.target (some address)).toOption.map fun a => (a, "")
  | _ => none

/-- A cell that is committed lies in the grid, unless it is the focused one. -/
theorem contains_of_target {address : Option String} (h : s.target address = .ok a) :
    s.sheet.grid.Contains a ∨ s.isFocused a = true := by
  unfold target at h
  cases address with
  | some name =>
    dsimp only [locate] at h
    split at h
    · split at h
      · rename_i b hlocate
        cases h
        exact .inl (Sheet.contains_of_locate hlocate).2
      · cases h
    · cases h
  | none =>
    dsimp only at h
    split at h
    · split at h
      · rename_i e hediting
        cases h
        exact .inr (isFocused_of_editing hediting)
      · cases h
    · cases h

/-- What a move did that leaves a cell focused. -/
inductive Focuses (s : Session) (v : Move) (e : Editing) : Prop
  | keeps : s.isFocused e.address = true → s.commits? v = none →
      (s.move v).sheet = s.sheet → s.Focuses v e
  | commits (a : Address) (text : String) : s.isFocused e.address = true →
      s.sheet.grid.Contains a → s.commits? v = some (a, text) →
      (s.move v).sheet = (s.sheet.commit a text).1 → s.Focuses v e
  /-- The cell was focused before, or another one was left, with a sweep. -/
  | opens (t : Session) : t.Sound →
      (s.isFocused e.address = true ∧ t = s ∨ s.isFocused e.address = false ∧ t.editing = none) →
      s.commits? v = none → (s.move v).sheet = t.openedSheet e.address →
      s.clearsError v = (t.cellAt e.address).isError → s.Focuses v e

theorem focuses_of_same (hcommits : s.commits? v = none) (hediting : (s.move v).editing = s.editing)
    (hsheet : (s.move v).sheet = s.sheet) (h : (s.move v).editing = some e) : s.Focuses v e :=
  .keeps (isFocused_of_editing (hediting ▸ h)) hcommits hsheet

theorem focuses_commit (clock : Option Nat) (address text : Option String)
    (hcommits : s.commits? v =
      (s.target address).toOption.map fun a => (a, text.getD (s.textAt a)))
    (hmove : s.move v = (s.commit clock address text).session)
    (h : (s.move v).editing = some e) : s.Focuses v e := by
  cases htarget : s.target address with
  | error refusal =>
    have heq : (s.commit clock address text).session = s := by
      rw [commit, htarget]
      rfl
    rw [heq] at hmove
    refine focuses_of_same ?_ (by rw [hmove]) (by rw [hmove]) h
    rw [hcommits, htarget]
    rfl
  | ok a =>
    have heq : (s.commit clock address text).session =
        (s.commitAt clock a (text.getD (s.textAt a))).session := by
      rw [commit, htarget]
    rw [heq] at hmove
    rw [hmove] at h
    obtain ⟨hediting, hsheet⟩ := focused_commitAt h
    have hcontains : s.sheet.grid.Contains a := by
      refine (contains_of_target htarget).resolve_right fun hfocused => ?_
      rw [editing_commitAt_of_isFocused hfocused] at h
      cases h
    refine .commits a _ (isFocused_of_editing hediting) hcontains ?_ (hmove ▸ hsheet)
    rw [hcommits, htarget]
    rfl

/-- A cell is opened in the session that it is focused in, once another one was left. -/
theorem focuses_opened (hs : s.Sound) (clock : Option Nat) (hcommits : s.commits? v = none)
    (haddress : e.address = a) (hsheet : (s.move v).sheet = (s.left clock a).openedSheet a)
    (hclears : s.clearsError v = ((s.left clock a).cellAt a).isError) : s.Focuses v e := by
  subst haddress
  refine .opens (s.left clock e.address) (hs.left clock e.address) ?_ hcommits hsheet hclears
  cases hfocused : s.isFocused e.address with
  | true => exact .inl ⟨rfl, left_of_isFocused hfocused⟩
  | false => exact .inr ⟨rfl, editing_left hfocused⟩

/-- **One description of the moves that leave a cell focused.** -/
theorem focused_cases (hs : s.Sound) (h : (s.move v).editing = some e) : s.Focuses v e := by
  cases v with
  | call clock c =>
    cases c with
    | load =>
      rcases load_cases s with ⟨heq, -⟩ | ⟨-, -, -, -, hediting, -⟩
      · exact focuses_of_same rfl (congrArg _ heq) (congrArg _ heq) h
      · have hnone : (s.move (.call clock .load)).editing = none := hediting
        rw [hnone] at h
        cases h
    | focus address =>
      rcases focus_cases clock s address with heq | ⟨a, hlocate, heq⟩
      · exact focuses_of_same rfl (congrArg _ heq) (congrArg _ heq) h
      · obtain ⟨hsheet, ⟨buffer, hediting⟩, -⟩ := focusAt_session clock s a
        have hmove : s.move (.call clock (.focus address)) = (s.focusAt clock a).session := heq
        rw [hmove, hediting] at h
        refine focuses_opened hs clock rfl (a := a) ?_ (hmove ▸ hsheet) ?_
        · rw [← Option.some.inj h]
        · simp only [clearsError, opensError, hlocate]
    | edit address text =>
      rcases edit_cases clock s address text with heq | ⟨a, hlocate, t, e', ht, heq⟩
      · exact focuses_of_same rfl (congrArg _ heq) (congrArg _ heq) h
      · have haddress := address_of_edit hlocate h
        have hmove : s.move (.call clock (.edit address text)) = { t with editing := some e' } :=
          heq
        rcases ht with ⟨hfocused, rfl⟩ | ⟨hfocused, rfl⟩
        · exact .keeps (haddress ▸ hfocused) rfl (by rw [hmove])
        · refine focuses_opened hs clock rfl haddress ?_ ?_
          · rw [hmove]
            exact (focusAt_session clock s a).1
          · simp only [clearsError, opensError, hlocate, hfocused, Bool.not_false, Bool.true_and]
    | commit address text => exact focuses_commit clock address text rfl rfl h
    | clear address => exact focuses_commit clock (some address) (some "") rfl rfl h
    | reconcile =>
      rcases reconcile_cases s with heq | heq
      · exact focuses_of_same rfl (congrArg _ heq) (congrArg _ heq) h
      · have hmove : s.move (.call clock .reconcile) = s.sweep.1 := heq
        have hediting : s.editing = some e := by rwa [hmove, editing_sweep] at h
        rw [sweep_of_focused hediting] at hmove
        exact focuses_of_same rfl (congrArg _ hmove) (congrArg _ hmove) h
    | save =>
      rcases save_cases clock s with heq | heq
      · exact focuses_of_same rfl (congrArg _ heq) (congrArg _ heq) h
      · have hmove : s.move (.call clock .save) = (s.trigger clock).session := heq
        exact focuses_of_same rfl (hmove ▸ editing_trigger clock s) (hmove ▸ sheet_trigger clock s) h
    | dispose => exact focuses_of_same rfl rfl rfl h
  | fire now => exact focuses_of_same rfl rfl rfl h
  | resume now number reply => exact focuses_of_same rfl rfl rfl h
  | rewrite store => exact focuses_of_same rfl rfl rfl h

end Session

/-! ## What was touched since the last sweep -/

/-- A session, and what was done to its sheet since this was swept. -/
structure Unswept where
  session : Session
  /-- The cells that were committed while another one was focused. -/
  committed : List Address := []
  /-- The cells that these commits left behind. -/
  behind : Address → Prop := fun _ => False
  /-- The focused cell, if its error was cleared when it was opened. -/
  cleared : List Address := []

namespace Unswept

variable {w : Unswept} {v : Session.Move} {e : Editing} {data : String}

/-- The cells that a commit evaluates. -/
def evaluated (w : Unswept) (v : Session.Move) : List Address :=
  match w.session.commits? v with
  | none => []
  | some (a, text) => w.session.sheet.grid.touched w.session.sheet.depthLimit a text

/-- Whenever no cell is focused, and when a cell was left for another one, the sheet was swept. -/
def move (w : Unswept) (v : Session.Move) : Unswept :=
  let s := w.session.move v
  match s.editing with
  | none => { session := s }
  | some e =>
    let kept := w.session.isFocused e.address
    { session := s
      committed := (w.session.commits? v).toList.map Prod.fst ++ if kept then w.committed else []
      behind :=
        if kept then w.session.sheet.grid.stillBehind s.sheet.grid (w.evaluated v) w.behind
        else fun _ => False
      cleared := (if w.session.clearsError v then [e.address] else []) ++
        if kept then w.cleared else [] }

/-- The session after moves in order, and what was touched since the sheet was swept last. -/
def run (w : Unswept) (moves : List Session.Move) : Unswept := moves.foldl move w

theorem session_move (w : Unswept) (v : Session.Move) :
    (w.move v).session = w.session.move v := by
  unfold move
  dsimp only
  split <;> rfl

theorem session_run (w : Unswept) (moves : List Session.Move) :
    (w.run moves).session = w.session.run moves := by
  induction moves generalizing w with
  | nil => rfl
  | cons v moves ih => exact (ih (w := w.move v)).trans (by rw [session_move]; rfl)

/-- The session is sound, and its grid is current but for what was touched. -/
structure Inv (w : Unswept) : Prop where
  sound : w.session.Sound
  limit : (w.session.sheet.grid.size : Int) ≤ w.session.sheet.depthLimit
  current : w.session.sheet.grid.CurrentBut w.committed w.cleared
  behind : w.session.sheet.grid.CurrentUnless w.behind w.cleared

theorem move_of_not_focused (h : (w.session.move v).editing = none) :
    w.move v = { session := w.session.move v } := by
  rw [move, h]

/-- While the same cell is focused, more is touched. -/
theorem move_of_kept (h : (w.session.move v).editing = some e)
    (hfocused : w.session.isFocused e.address = true) :
    w.move v = {
      session := w.session.move v
      committed := (w.session.commits? v).toList.map Prod.fst ++ w.committed
      behind := w.session.sheet.grid.stillBehind (w.session.move v).sheet.grid (w.evaluated v)
        w.behind
      cleared := (if w.session.clearsError v then [e.address] else []) ++ w.cleared } := by
  rw [move, h]
  simp only [hfocused, if_true]

theorem move_of_left (h : (w.session.move v).editing = some e)
    (hfocused : w.session.isFocused e.address = false) :
    w.move v = {
      session := w.session.move v
      committed := (w.session.commits? v).toList.map Prod.fst
      cleared := if w.session.clearsError v then [e.address] else [] } := by
  rw [move, h]
  simp [hfocused]

/-- **The step lemma.** -/
theorem Inv.move (h : w.Inv) (v : Session.Move) : (w.move v).Inv := by
  have hsound := h.sound.move v
  have hlimit := Session.sheetInvariant_limit.move h.limit v
  cases hediting : (w.session.move v).editing with
  | none =>
    have hcurrent := hsound.current hediting
    rw [move_of_not_focused hediting]
    exact ⟨hsound, hlimit, hcurrent.currentBut [] [], hcurrent.currentUnless _ []⟩
  | some e =>
    cases Session.focused_cases h.sound hediting with
    | keeps hfocused hcommits hsheet =>
      rw [move_of_kept hediting hfocused]
      refine ⟨hsound, hlimit, ?_, ?_⟩
      · dsimp only
        rw [hsheet]
        exact h.current.mono (List.subset_append_right _ _) (List.subset_append_right _ _)
      · dsimp only
        rw [hsheet, evaluated, hcommits]
        exact h.behind.mono (fun a => Grid.stillBehind_nil.2) (List.subset_append_right _ _)
    | commits a text hfocused hcontains hcommits hsheet =>
      rw [move_of_kept hediting hfocused]
      refine ⟨hsound, hlimit, ?_, ?_⟩
      · dsimp only
        rw [hsheet, hcommits, Sheet.grid_commit]
        exact (h.current.commit _ a text).mono (List.Subset.refl _) (List.subset_append_right _ _)
      · dsimp only
        rw [hsheet, evaluated, hcommits, Sheet.grid_commit]
        exact (Grid.currentUnless_commit hcontains h.limit h.sound.sheet.marked h.behind text).mono
          (fun _ => id) (List.subset_append_right _ _)
    | opens t ht hcase hcommits hsheet hclears =>
      rcases hcase with ⟨hfocused, rfl⟩ | ⟨hfocused, hnone⟩
      · rw [move_of_kept hediting hfocused]
        refine ⟨hsound, hlimit, ?_, ?_⟩
        · dsimp only
          rw [hsheet, hclears, hcommits]
          exact Session.currentBut_openedSheet h.sound.sheet h.current e.address
        · dsimp only
          rw [hsheet, hclears, evaluated, hcommits]
          exact (Session.currentUnless_openedSheet h.sound.sheet h.behind e.address).mono
            (fun a => Grid.stillBehind_nil.2) (List.Subset.refl _)
      · have hcurrent := ht.current hnone
        rw [move_of_left hediting hfocused]
        refine ⟨hsound, hlimit, ?_, ?_⟩
        · dsimp only
          rw [hsheet, hclears, hcommits, ← List.append_nil (ite ..)]
          exact Session.currentBut_openedSheet ht.sheet (hcurrent.currentBut [] []) e.address
        · dsimp only
          rw [hsheet, hclears, ← List.append_nil (ite ..)]
          exact Session.currentUnless_openedSheet ht.sheet (hcurrent.currentUnless _ []) e.address

/-- **The run lemma.** -/
theorem Inv.run (h : w.Inv) (moves : List Session.Move) : (w.run moves).Inv := by
  induction moves generalizing w with
  | nil => exact h
  | cons v moves ih => exact ih (h.move v)

/-! ## Texts that are right -/

/-- The text is that of the sheet, no cell is in error, and the formulas show what they evaluate to,
but for what was touched while a cell is focused. -/
structure Right (w : Unswept) (data : String) : Prop where
  csv : data = w.session.sheet.grid.csv
  noErrors : w.session.sheet.grid.hasErrors = false
  unfocused : w.session.editing = none → ∀ a, w.session.sheet.grid.ShowsNumber a
  focused : ∀ a, a ∉ w.cleared →
    (w.behind a → ∀ u ∈ w.committed, ¬ w.session.sheet.grid.Reaches (.cell a) (.cell u)) →
      w.session.sheet.grid.ShowsNumber a

/-- What is handed to the client is right. -/
theorem Inv.right {now : Nat} (h : w.Inv) (hdata : w.session.handed? (.fire now) = some data) :
    w.Right data := by
  obtain ⟨hcsv, herrors⟩ := Session.of_handed? hdata
  refine ⟨hcsv, herrors, fun hnone a => ?_, fun a ha hfree => ?_⟩
  · exact Grid.showsNumber_of_shows herrors fun c hc => .inl (h.sound.current hnone a c hc)
  · refine Grid.showsNumber_of_shows herrors fun c hc => ?_
    by_cases hbehind : w.behind a
    · exact h.current a c hc ha (hfree hbehind)
    · exact (h.behind a c hc ha).imp_right fun hrest => hrest.resolve_right hbehind

end Unswept

namespace Session

/-- A session after moves, and what was touched since the sheet was swept last. -/
def unswept (settings : Settings) (store : Store) (moves : List Move) : Unswept :=
  Unswept.run { session := ofStore settings store } moves

theorem inv_unswept (settings : Settings) (store : Store) (moves : List Move) :
    (unswept settings store moves).Inv :=
  Unswept.Inv.run ⟨sound_ofStore settings store, sheetInvariant_limit.ofGrid _,
    settings.current_emptyGrid.currentBut [] [], settings.current_emptyGrid.currentUnless _ []⟩
    moves

/-- **What is posted is right, but for what was touched since the last sweep.** -/
theorem posted_right {settings : Settings} {store : Store} {moves : List Move} {v : Move}
    {data : String} (h : data ∈ ((ofStore settings store).run moves).posted v) :
    ∃ before now later, moves = before ++ .fire now :: later ∧
      (unswept settings store before).Right data := by
  obtain ⟨before, now, later, hmoves, hdata⟩ := handedIn_of_posted h
  have hsession : (unswept settings store before).session = (ofStore settings store).run before :=
    Unswept.session_run _ before
  exact ⟨before, now, later, hmoves,
    (inv_unswept settings store before).right (hsession.symm ▸ hdata)⟩

/-! ## A cell that is posted blank -/

/-- A sheet of two cells. -/
def twoCells : Settings where
  rows := 1
  columns := 2
  rows_pos := Nat.one_pos
  columns_pos := Nat.two_pos
  columns_le := by decide

/-- A save of the number in the first cell is triggered. Then a formula without a value is entered
into the second cell, which is opened again before the window of quiet ends. -/
def blanked : List Move :=
  [.call (some 0) .load, .call (some 0) .save,
    .call (some 0) (.commit (some "B1") (some "=A1^2")), .call (some 0) (.focus "B1")]

theorem posted_blanked :
    "5," ∈ ((ofStore twoCells storedFive).run (blanked ++ [.fire 1000])).posted
      (.resume 1000 0 .done) := by
  decide +kernel

/-- The text was handed over while the blank cell was focused, its error cleared. -/
theorem blanked_right :
    "5," ∈ ((ofStore twoCells storedFive).run (blanked ++ [.fire 1000])).posted
        (.resume 1000 0 .done) ∧
      ∃ before now later, blanked ++ [.fire 1000] = before ++ .fire now :: later ∧
        (unswept twoCells storedFive before).Right "5," :=
  ⟨posted_blanked, posted_right posted_blanked⟩

/-- Before the only end of a window come all moves but that. -/
theorem before_fire {moves before later : List Move} {now due : Nat}
    (hmoves : ∀ v ∈ moves, ∀ now, v ≠ .fire now)
    (h : moves ++ [.fire due] = before ++ .fire now :: later) : before = moves := by
  rcases List.append_eq_append_iff.1 h with ⟨rest, rfl, hrest⟩ | ⟨rest, rfl, hrest⟩
  · cases rest with
    | nil => exact List.append_nil _
    | cons v rest => simp at hrest
  · cases rest with
    | nil => exact (List.append_nil _).symm
    | cons v rest =>
      obtain rfl := (List.cons.inj hrest).1
      exact absurd rfl (hmoves (.fire now) (by simp) now)

/-- Not every text that is posted is of a sheet in which all formulas show numbers. -/
theorem blank_posted :
    ¬ ∀ (settings : Settings) (store : Store) (moves : List Move) (v : Move) (data : String),
      data ∈ ((ofStore settings store).run moves).posted v →
      ∃ before now later, moves = before ++ .fire now :: later ∧
        data = ((ofStore settings store).run before).sheet.grid.csv ∧
        ((ofStore settings store).run before).sheet.grid.hasErrors = false ∧
        ∀ a, ((ofStore settings store).run before).sheet.grid.ShowsNumber a := by
  intro h
  obtain ⟨before, now, later, hmoves, -, -, hshows⟩ := h twoCells storedFive _ _ _ posted_blanked
  obtain rfl := before_fire (by simp [blanked]) hmoves
  have hcell : ((ofStore twoCells storedFive).run blanked).sheet.grid.get? ⟨0, 1⟩ =
      some ⟨"", some "=A1^2", .none⟩ := by
    decide +kernel
  have hfails : (((ofStore twoCells storedFive).run blanked).sheet.grid.evaluateFormula "=A1^2"
      (.cell ⟨0, 1⟩) []).1.isOk = false := by
    decide +kernel
  obtain ⟨x, hx, -⟩ := hshows ⟨0, 1⟩ _ "=A1^2" hcell rfl
  rw [hx] at hfails
  cases hfails

end Session

end Spreadsheet
