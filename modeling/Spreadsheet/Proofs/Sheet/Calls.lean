import Spreadsheet.Proofs.Recalculation.Bounded
import Spreadsheet.Proofs.Recalculation.KnownTokens

/-!
# Runs of a sheet

Texts are committed to the cells of a sheet by their names, and sweeps are asked for at any time.

**Theorem (`tokens_do_not_show`).** A call does nothing to the grid but to enter a text, if the text
is no formula, and to store the results of evaluations. Each of these has the result that the
formula has in its cell with no tokens kept from other evaluations.
-/

namespace Spreadsheet

open Text

namespace Sheet

/-- What can be asked of a sheet. -/
inductive Call where
  | commit (address text : String)
  | reconcile
  deriving DecidableEq, Repr

/-- The sheet after a call. A name of no cell changes nothing. -/
def call (s : Sheet) : Call → Sheet
  | .commit address text =>
    match s.grid.locate address with
    | .error _ => s
    | .ok a => (s.commit a text).1
  | .reconcile => s.reconcile.1

/-- The sheet after calls in order. -/
def run (s : Sheet) (calls : List Call) : Sheet := calls.foldl call s

theorem run_snoc (s : Sheet) (calls : List Call) (c : Call) :
    s.run (calls ++ [c]) = (s.run calls).call c :=
  List.foldl_append

/-- What every call preserves, together with the calls made so far, holds after every run. -/
theorem run_induction {p : List Call → Sheet → Prop}
    (hcall : ∀ done s c, p done s → p (done ++ [c]) (s.call c)) (calls : List Call)
    (done : List Call) {s : Sheet} (hs : p done s) : p (done ++ calls) (s.run calls) := by
  induction calls generalizing done s with
  | nil =>
    rw [List.append_nil]
    exact hs
  | cons c calls ih =>
    rw [← List.singleton_append, ← List.append_assoc]
    exact ih (done ++ [c]) (hcall done s c hs)

theorem contains_of_locate {g : Grid} {address : String} {a : Address}
    (h : g.locate address = .ok a) : Address.parse address = .ok a ∧ g.Contains a := by
  unfold Grid.locate at h
  split at h
  · cases h
  · rename_i b hparse
    split at h
    · rename_i hb
      cases h
      exact ⟨hparse, hb⟩
    · cases h

theorem call_of_ok {s : Sheet} {address : String} {a : Address}
    (h : s.grid.locate address = .ok a) (text : String) :
    s.call (.commit address text) = (s.commit a text).1 := by
  simp only [call, h]

theorem call_of_error {s : Sheet} {address : String} {missing : MissingCell}
    (h : s.grid.locate address = .error missing) (text : String) :
    s.call (.commit address text) = s := by
  simp only [call, h]

/-- A call changes nothing, or it commits a text to a cell of the grid, or it sweeps the sheet. -/
theorem call_induction {p : Sheet → Prop} {s : Sheet} (hs : p s)
    (hcommit : ∀ a text, s.grid.Contains a → p (s.commit a text).1) (hreconcile : p s.reconcile.1)
    (c : Call) : p (s.call c) := by
  cases c with
  | commit address text =>
    cases hlocate : s.grid.locate address with
    | error missing =>
      rw [call_of_error hlocate]
      exact hs
    | ok a =>
      rw [call_of_ok hlocate]
      exact hcommit a text (contains_of_locate hlocate).2
  | reconcile => exact hreconcile

/-! ## Computing runs -/

/-- The sheet after commits that are computed within a number of steps. Sweeps are left out. -/
def runWithin (n : Nat) : Sheet → List Call → Option Sheet
  | s, [] => some s
  | s, .commit address text :: calls =>
    match s.grid.locate address with
    | .error _ => runWithin n s calls
    | .ok a =>
      (s.grid.commitWithin n s.depthLimit a text).bind fun g =>
        runWithin n { s with grid := g } calls
  | _, .reconcile :: _ => none

theorem run_of_runWithin {n : Nat} {calls : List Call} {s t : Sheet}
    (h : s.runWithin n calls = some t) : s.run calls = t := by
  induction calls generalizing s with
  | nil => exact Option.some.inj h
  | cons c calls ih =>
    cases c with
    | reconcile => cases h
    | commit address text =>
      unfold runWithin at h
      show (s.call (.commit address text)).run calls = t
      cases hlocate : s.grid.locate address with
      | error missing =>
        simp only [hlocate] at h
        rw [call_of_error hlocate, ih h]
      | ok a =>
        simp only [hlocate] at h
        obtain ⟨g, hcommit, hrun⟩ := Option.bind_eq_some_iff.1 h
        have hcall : (s.commit a text).1 = { s with grid := g } := by
          rw [← Grid.commit_of_within hcommit, Sheet.commit]
        rw [call_of_ok hlocate, hcall, ih hrun]

/-- What is found of a sheet after commits that are computed within a number of steps. -/
theorem any_run {n : Nat} {calls : List Call} {s : Sheet} {p : Sheet → Bool}
    (h : (s.runWithin n calls).any p = true) : p (s.run calls) = true := by
  cases hrun : s.runWithin n calls with
  | none =>
    rw [hrun] at h
    cases h
  | some t =>
    rw [hrun, Option.any_some] at h
    rw [run_of_runWithin hrun]
    exact h

/-! ## The evaluations of a call -/

/-- The evaluations that a call makes, in order. -/
def evaluations (s : Sheet) : Call → List Evaluation
  | .commit address text =>
    match s.grid.locate address with
    | .error _ => []
    | .ok a => s.grid.commitEvaluations s.depthLimit a text
  | .reconcile => if s.hasChanged then s.grid.sweepEvaluations [] s.grid.formulaCells else []

/-- The grid in which a call stores the results of its evaluations. -/
def startOf (s : Sheet) : Call → Grid
  | .commit address text =>
    match s.grid.locate address with
    | .error _ => s.grid
    | .ok a => s.grid.commitStart a text
  | .reconcile => s.grid

/-- A call stores the results of its evaluations, and does nothing else but to enter a text. -/
theorem grid_call (s : Sheet) (c : Call) :
    (s.call c).grid = Evaluation.storeAll (s.startOf c) (s.evaluations c) := by
  cases c with
  | commit address text =>
    cases hlocate : s.grid.locate address with
    | error missing =>
      simp only [startOf, evaluations, hlocate, call_of_error hlocate]
      rfl
    | ok a =>
      simp only [startOf, evaluations, hlocate, call_of_ok hlocate, grid_commit]
      exact Grid.grid_commit s.grid s.depthLimit a text
  | reconcile =>
    unfold call startOf evaluations
    dsimp only
    cases hchanged : s.hasChanged with
    | true =>
      rw [reconcile_of_hasChanged hchanged]
      exact Grid.grid_recalculate s.grid [] s.grid.formulaCells
    | false =>
      rw [reconcile_of_not_hasChanged hchanged]
      rfl

theorem plain_evaluations (s : Sheet) (c : Call) : ∀ e ∈ s.evaluations c, e.Plain := by
  intro e he
  cases c with
  | commit address text =>
    unfold evaluations at he
    dsimp only at he
    cases hlocate : s.grid.locate address with
    | error missing =>
      rw [hlocate] at he
      cases he
    | ok a =>
      rw [hlocate] at he
      exact Grid.plain_commitEvaluations (contains_of_locate hlocate).2 s.depthLimit text e he
  | reconcile =>
    unfold evaluations at he
    dsimp only at he
    split at he
    · exact Grid.plain_sweepEvaluations (Grid.lists_formulaCells s.grid) (.nil s.grid) e he
    · cases he

/-- **Tokens of other evaluations do not show.** Whatever a commit or a sweep evaluates, at any depth
and after any other evaluations, has the result that the formula has where it stands in its cell and
no tokens are known; and nothing but these results is stored. -/
theorem tokens_do_not_show (s : Sheet) (c : Call) :
    (s.call c).grid = Evaluation.storeAll (s.startOf c) (s.evaluations c) ∧
      ∀ e ∈ s.evaluations c, e.Plain :=
  ⟨grid_call s c, plain_evaluations s c⟩

end Sheet

end Spreadsheet
