import Spreadsheet.Proofs.Recalculation.Missed
import Spreadsheet.Proofs.Sheet.History

/-!
# How current commits keep a sheet

Commits alone do not keep a sheet current, because errors are not carried on: a cell may go on showing
a number when its formula fails. What does a formula show that evaluates to a number?

**Theorem (`numbersShown_run`).** In every state of a sheet that began empty and has no limit on how
far a change is carried, each formula that evaluates to a number shows this number and is in no
error, unless its cell was missed (`Missed`): a commit evaluated a cell that the formula leads to, and
that cell showed the same as before although it had not shown its result, and the formula was not
evaluated since.

The induction is over the calls. Whatever a call evaluates shows its result, and it is carried on from
every change that can be seen (`carried_call`); what is missed after the call are those cells only
that were missed before, or lead to one that recovered unseen.
-/

namespace Spreadsheet

open Text

namespace Sheet

variable {s start : Sheet} {calls : List Call} {a : Address}

/-! ## What a call evaluates -/

/-- The cells that a call evaluates. A sweep looks at every cell, or finds that all is current. -/
def evaluated (s : Sheet) : Call → List Address
  | .commit address text =>
    match s.grid.locate address with
    | .error _ => []
    | .ok a => s.grid.touched s.depthLimit a text
  | .reconcile => s.grid.addresses

theorem carried_reconcile (h : s.Sound) :
    s.grid.Carried s.reconcile.1.grid s.grid.addresses := by
  have hsize := (calculated_reconcile s).sameSize
  refine ⟨hsize.symm, fun b hb => ?_, fun b _ c hc => h.reconcile.2 b c hc, ?_⟩
  · have hout : ¬ s.grid.Contains b := fun hc => hb (Grid.mem_addresses.2 hc)
    rw [Grid.get?_eq_none hout]
    exact Grid.get?_eq_none fun hc => hout ((Grid.contains_congr hsize b).1 hc)
  · rintro b - - u ⟨c, formula, hc, -⟩
    have hu : s.reconcile.1.grid.Contains u := Grid.contains_of_get? hc
    exact Grid.mem_addresses.2 ((Grid.contains_congr hsize u).1 hu)

/-- A call is carried on from every change that can be seen. -/
theorem carried_call (h : s.Sound) (hlimit : s.grid.size ≤ s.depthLimit) (c : Call) :
    s.grid.Carried (s.call c).grid (s.evaluated c) := by
  cases c with
  | commit address text =>
    cases hlocate : s.grid.locate address with
    | error missing =>
      rw [call_of_error hlocate]
      simp only [evaluated, hlocate]
      exact ⟨.refl s.grid, fun _ _ => rfl, nofun, nofun⟩
    | ok a =>
      rw [call_of_ok hlocate, grid_commit]
      simp only [evaluated, hlocate]
      exact Grid.carried_commit (contains_of_locate hlocate).2 hlimit text
  | reconcile => exact carried_reconcile h

/-- The cells that calls evaluate. -/
def evaluatedBy (s : Sheet) : List Call → List Address
  | [] => []
  | c :: calls => s.evaluated c ++ (s.call c).evaluatedBy calls

theorem evaluatedBy_snoc (s : Sheet) (calls : List Call) (c : Call) :
    s.evaluatedBy (calls ++ [c]) = s.evaluatedBy calls ++ (s.run calls).evaluated c := by
  induction calls generalizing s with
  | nil => exact List.append_nil _
  | cons d calls ih =>
    rw [List.cons_append, evaluatedBy, evaluatedBy, ih, List.append_assoc]
    rfl

/-! ## Missed cells -/

/-- A cell is missed: it leads to one that recovered unseen in some call, and neither this call nor
a later one evaluated it. -/
def Missed (start : Sheet) (calls : List Call) (a : Address) : Prop :=
  ∃ earlier c later u, calls = earlier ++ c :: later ∧
    (start.run earlier).grid.Recovers ((start.run earlier).call c).grid
      ((start.run earlier).evaluated c) u ∧
    ((start.run earlier).call c).grid.Reaches (.cell a) (.cell u) ∧
    a ∉ (start.run earlier).evaluatedBy (c :: later)

/-- A cell that is still missed after a call was missed before, or leads to one that recovered. -/
theorem missed_snoc {c : Call} (h : (start.run calls).grid.stillMissed
      ((start.run calls).call c).grid ((start.run calls).evaluated c) (Missed start calls) a) :
    Missed start (calls ++ [c]) a := by
  obtain ⟨hnot, ⟨earlier, d, later, u, hcalls, hrecovers, hreach, hlater⟩ |
    ⟨u, hrecovers, hreach⟩⟩ := h
  · refine ⟨earlier, d, later ++ [c], u, by rw [hcalls]; simp, hrecovers, hreach, ?_⟩
    rw [← List.cons_append, evaluatedBy_snoc, List.mem_append, not_or]
    refine ⟨hlater, ?_⟩
    have hrun : (start.run earlier).run (d :: later) = start.run calls := by
      rw [hcalls]
      exact (List.foldl_append).symm
    rw [hrun]
    exact hnot
  · refine ⟨calls, c, [], u, rfl, hrecovers, hreach, ?_⟩
    rw [evaluatedBy, evaluatedBy, List.append_nil]
    exact hnot

/-! ## Runs -/

/-- What holds of a sheet after calls. -/
structure Watched (start : Sheet) (calls : List Call) (s : Sheet) : Prop where
  run : s = start.run calls
  sound : s.Sound
  proper : s.grid.Proper
  limit : s.grid.size ≤ s.depthLimit
  numbers : s.grid.NumbersShown (Missed start calls)

theorem sameSize_call (s : Sheet) (c : Call) : (s.call c).grid.SameSize s.grid :=
  call_induction (p := fun t => t.grid.SameSize s.grid) (.refl _)
    (fun a text _ => sameSize_commit s a text) (calculated_reconcile s).sameSize c

theorem depthLimit_call (s : Sheet) (c : Call) : (s.call c).depthLimit = s.depthLimit :=
  call_induction (p := fun t => t.depthLimit = s.depthLimit) rfl
    (fun a text _ => by rw [commit_eq]) (depthLimit_reconcile s) c

theorem sound_call (h : s.Sound) (c : Call) : (s.call c).Sound :=
  call_induction h (fun a text _ => h.commit a text) h.reconcile.1 c

theorem proper_call (h : s.grid.Proper) (c : Call) : (s.call c).grid.Proper := by
  refine call_induction (p := fun t => t.grid.Proper) h (fun a text _ => ?_)
    ((calculated_reconcile s).proper h) c
  rw [grid_commit]
  exact Grid.proper_commit h s.depthLimit a text

theorem Watched.call (h : Watched start calls s) (c : Call) :
    Watched start (calls ++ [c]) (s.call c) where
  run := by
    rw [h.run, run_snoc]
  sound := sound_call h.sound c
  proper := proper_call h.proper c
  limit := by
    obtain ⟨hrows, hcolumns⟩ := sameSize_call s c
    rw [depthLimit_call, Grid.size, hrows, hcolumns]
    exact h.limit
  numbers := by
    intro a d formula x hd hf hx
    have hsound := sound_call h.sound c
    have hshown := (carried_call h.sound h.limit c).numbersShown
      (fun u _ d hd => hsound.marked u d hd) h.proper h.numbers
    refine (hshown a d formula x hd hf hx).imp_right fun hmissed => ?_
    have hrun := h.run
    subst hrun
    exact missed_snoc hmissed

theorem watched_ofGrid {rows columns : Int} {g : Grid} (h : Grid.ofSize rows columns = .ok g) :
    Watched (Sheet.ofGrid g none) [] (Sheet.ofGrid g none) where
  run := rfl
  sound := sound_ofGrid (fun a c hc => by rw [Grid.get?_ofSize h hc]; exact Cell.marked_empty) none
  proper := by
    intro a c hc _
    rw [Grid.get?_ofSize h hc]
    exact .inl rfl
  limit := Int.le_refl _
  numbers := by
    intro a c formula x hc hf
    rw [Grid.get?_ofSize h hc] at hf
    cases hf

/-- **Numbers are shown but where a recovery was missed**, after every run of commits and sweeps. -/
theorem numbersShown_run {rows columns : Int} {g : Grid} (h : Grid.ofSize rows columns = .ok g)
    (calls : List Call) :
    ((Sheet.ofGrid g none).run calls).grid.NumbersShown (Missed (Sheet.ofGrid g none) calls) :=
  (run_induction (p := Watched (Sheet.ofGrid g none)) (fun _ _ c hs => hs.call c) calls []
    (watched_ofGrid h)).numbers

/-! ## A cell that is left behind -/

/-- A sheet of three cells. -/
def threeCells : Grid := Grid.empty 1 3 Nat.one_pos (Nat.succ_pos 2) (Nat.le_add_right 3 23)

/-- The second cell shows 5 as the first does, and goes on showing it when the first is in error.
Meanwhile a formula that reads the second cell is entered into the third. -/
def leftBehind : List Call :=
  [.commit "A1" "5", .commit "B1" "=A1", .commit "A1" "abc", .commit "C1" "=B1+2",
    .commit "A1" "5"]

theorem exists_leftBehind :
    ∃ s x, (Sheet.ofGrid threeCells none).run leftBehind = s ∧
      s.grid.get? ⟨0, 2⟩ = some (Cell.ofError .error (some "=B1+2")) ∧
      (s.grid.evaluateFormula "=B1+2" (.cell ⟨0, 2⟩) []).1 = .ok x := by
  have hrun : ((Sheet.ofGrid threeCells none).runWithin 9 leftBehind).any (fun s =>
      s.grid.get? ⟨0, 2⟩ == some (Cell.ofError .error (some "=B1+2")) &&
        (s.grid.evaluateFormulaWithin 9 "=B1+2" (.cell ⟨0, 2⟩) []).any fun found =>
          found.1.isOk) = true := by
    decide +kernel
  have hall := any_run hrun
  rw [Bool.and_eq_true, beq_iff_eq] at hall
  obtain ⟨hcell, hvalue⟩ := hall
  generalize (Sheet.ofGrid threeCells none).run leftBehind = s at hcell hvalue ⊢
  cases hfound : s.grid.evaluateFormulaWithin 9 "=B1+2" (.cell ⟨0, 2⟩) [] with
  | none =>
    rw [hfound] at hvalue
    cases hvalue
  | some found =>
    obtain ⟨result, known⟩ := found
    rw [hfound, Option.any_some] at hvalue
    cases result with
    | error e => cases hvalue
    | ok x =>
      exact ⟨s, x, rfl, hcell, congrArg Prod.fst (Grid.evaluateFormula_of_within hfound)⟩

theorem ofSize_threeCells : Grid.ofSize 1 3 = .ok threeCells := rfl

/-- The third cell missed that the second one recovered. -/
theorem missed_leftBehind :
    Grid.ofSize 1 3 = .ok threeCells ∧
      Missed (Sheet.ofGrid threeCells none) leftBehind ⟨0, 2⟩ := by
  obtain ⟨s, x, rfl, hcell, hx⟩ := exists_leftBehind
  have hshown := numbersShown_run ofSize_threeCells leftBehind ⟨0, 2⟩ _ "=B1+2" x hcell rfl hx
  refine ⟨ofSize_threeCells, hshown.resolve_left fun heq => ?_⟩
  cases congrArg Cell.error heq

/-- Commits alone do not make every formula show its number. -/
theorem commits_leave_behind :
    ¬ ∀ (rows columns : Int) (g : Grid) (calls : List Call), Grid.ofSize rows columns = .ok g →
      (∀ c ∈ calls, c ≠ .reconcile) →
      ((Sheet.ofGrid g none).run calls).grid.NumbersShown fun _ => False := by
  intro h
  obtain ⟨s, x, rfl, hcell, hx⟩ := exists_leftBehind
  have hcommits : ∀ c ∈ leftBehind, c ≠ .reconcile := by decide
  have hshown := h 1 3 threeCells leftBehind ofSize_threeCells hcommits ⟨0, 2⟩ _ "=B1+2" x hcell
    rfl hx
  cases congrArg Cell.error (hshown.resolve_right id)

end Sheet

end Spreadsheet
