import Spreadsheet.Proofs.Recalculation.Dependents

/-!
# The evaluations of a sweep and of a commit

A sweep evaluates one formula after another, and so does a commit: the formula that is entered, if
it is one, and the dependents that the walk calculates. Here each evaluation is recorded, in order,
with the grid as it was and the tokens that were known.

Nothing else is done to the grid: it ends as the one in which all results are stored in order
(`grid_recalculate`, `grid_commit`).

A step of a walk can do one of six things (`Walk.Goes`). What is said of walks is proved by cases
on this.
-/

namespace Spreadsheet

open Text

/-- An evaluation of the formula of a cell, with the grid and the known tokens as they were. -/
structure Evaluation where
  grid : Grid
  address : Address
  formula : String
  tokens : Tokens

namespace Evaluation

/-- The number or the failure. -/
@[irreducible] def result (e : Evaluation) : Except FormulaError Float :=
  (e.grid.evaluateFormula e.formula (.cell e.address) e.tokens).1

/-- The tokens that are known afterwards. -/
@[irreducible] def known (e : Evaluation) : Tokens :=
  (e.grid.evaluateFormula e.formula (.cell e.address) e.tokens).2

/-- The cell that shows the result. -/
def cell (e : Evaluation) : Cell := Cell.ofResult e.formula e.result

/-- The grid in which the result is stored. -/
def stored (e : Evaluation) : Grid := e.grid.set e.address e.cell

theorem calculate_eq (g : Grid) (a : Address) (formula : String) (tokens : Tokens) :
    g.calculate a formula tokens =
      let e : Evaluation := ⟨g, a, formula, tokens⟩
      (e.result, e.cell, e.known) := by
  unfold Grid.calculate cell result known
  dsimp only

/-- The grid in which the results of evaluations are stored, one after another. -/
def storeAll (g : Grid) (es : List Evaluation) : Grid :=
  es.foldl (fun k e => k.set e.address e.cell) g

theorem storeAll_append (g : Grid) (es es' : List Evaluation) :
    storeAll g (es ++ es') = storeAll (storeAll g es) es' :=
  List.foldl_append

end Evaluation

/-! ## Steps of a walk -/

namespace Walk

variable {graph : DependencyGraph Address Reference} {limit : Int} {w t : Walk} {e : Evaluation}
  {c : Cell} {rest : List Address} {above : List (List Address)}

/-- The next dependent of a walk is a formula cell that was not visited, and this is how its
formula is evaluated. -/
structure Meets (w : Walk) (e : Evaluation) (c : Cell) (rest : List Address)
    (above : List (List Address)) : Prop where
  levels : w.levels = (e.address :: rest) :: above
  fresh : e.address ∉ w.visited
  cell : w.grid.get? e.address = some c
  formula : c.formula = some e.formula
  grid : e.grid = w.grid
  tokens : e.tokens = w.tokens

/-- The walk after an evaluation, with the dependents that are to be looked at then. -/
def record (w : Walk) (e : Evaluation) (c : Cell) (levels : List (List Address)) : Walk where
  grid := e.stored
  tokens := e.known
  visited := e.address :: w.visited
  levels := levels
  deltas := w.deltas ++ Delta.between e.address c e.cell
  count := w.count + 1
  stops := w.stops

/-- All that a step of a walk can do, with the evaluation that it makes, if it makes one. -/
inductive Goes (graph : DependencyGraph Address Reference) (limit : Int) (w : Walk) :
    Option Evaluation → Walk → Prop
  /-- The deepest level is done. -/
  | leaves {above : List (List Address)} :
      w.levels = [] :: above → Goes graph limit w none { w with levels := above }
  /-- The next dependent was visited before. -/
  | skips {a : Address} {rest : List Address} {above : List (List Address)} :
      w.levels = (a :: rest) :: above → a ∈ w.visited →
      Goes graph limit w none { w with levels := rest :: above }
  /-- The next dependent has no formula. -/
  | passes {a : Address} {rest : List Address} {above : List (List Address)} :
      w.levels = (a :: rest) :: above → a ∉ w.visited →
      (∀ c, w.grid.get? a = some c → c.formula = none) →
      Goes graph limit w none { w with visited := a :: w.visited, levels := rest :: above }
  /-- The next dependent shows the same as before, or an error. -/
  | holds {e : Evaluation} {c : Cell} {rest : List Address} {above : List (List Address)} :
      w.Meets e c rest above → e.cell.value = c.value ∨ e.cell.isError = true →
      Goes graph limit w (some e) (w.record e c (rest :: above))
  /-- The change is not carried on from the next dependent because of the limit. -/
  | stops {e : Evaluation} {c : Cell} {rest : List Address} {above : List (List Address)} :
      w.Meets e c rest above → e.cell.value ≠ c.value → e.cell.isError = false →
      limit ≤ (above.length + 1 : Nat) →
      Goes graph limit w (some e)
        { w.record e c (rest :: above) with stops := w.stops ++ [above.length + 1] }
  /-- The change is carried on from the next dependent. -/
  | follows {e : Evaluation} {c : Cell} {rest : List Address} {above : List (List Address)} :
      w.Meets e c rest above → e.cell.value ≠ c.value → e.cell.isError = false →
      (above.length + 1 : Nat) < limit →
      Goes graph limit w (some e)
        (w.record e c (graph.dependentsOf (.cell e.address) :: rest :: above))

/-- The evaluation that the next step makes, if it makes one. -/
def evaluation? (w : Walk) : Option Evaluation :=
  match w.levels with
  | (a :: _) :: _ =>
    if w.visited.contains a then none
    else
      match w.grid.get? a with
      | none => none
      | some c => c.formula.map fun formula => ⟨w.grid, a, formula, w.tokens⟩
  | _ => none

/-- The evaluations that a walk makes, in order. -/
def evaluations (graph : DependencyGraph Address Reference) (limit : Int) (w : Walk) :
    List Evaluation :=
  match _h : w.step graph limit with
  | some next => w.evaluation?.toList ++ next.evaluations graph limit
  | none => []
  termination_by w.measure
  decreasing_by exact measure_step _h

theorem evaluations_some (h : w.step graph limit = some t) :
    w.evaluations graph limit = w.evaluation?.toList ++ t.evaluations graph limit := by
  rw [evaluations]
  split
  · rename_i u hu
    rw [h] at hu
    cases hu
    rfl
  · rename_i hu
    rw [h] at hu
    cases hu

theorem evaluations_none (h : w.step graph limit = none) : w.evaluations graph limit = [] := by
  rw [evaluations]
  split
  · rename_i u hu
    rw [h] at hu
    cases hu
  · rfl

/-- The walk after a formula cell was visited. -/
theorem visit_eq (hmeets : w.Meets e c rest above) :
    w.visit graph limit e.address rest above =
      if e.cell.value = c.value then w.record e c (rest :: above)
      else if e.cell.isError then w.record e c (rest :: above)
      else if limit ≤ (above.length + 1 : Nat) then
        { w.record e c (rest :: above) with stops := w.stops ++ [above.length + 1] }
      else w.record e c (graph.dependentsOf (.cell e.address) :: rest :: above) := by
  have hcalculate : w.grid.calculate e.address e.formula w.tokens = (e.result, e.cell, e.known) := by
    rw [← hmeets.grid, ← hmeets.tokens]
    exact Evaluation.calculate_eq ..
  simp only [visit, hmeets.cell, hmeets.formula, hcalculate, record, Evaluation.stored, hmeets.grid]

theorem goes_visit (hmeets : w.Meets e c rest above) :
    w.Goes graph limit (some e) (w.visit graph limit e.address rest above) := by
  rw [visit_eq hmeets]
  split
  · rename_i hvalue
    exact .holds hmeets (.inl hvalue)
  · rename_i hvalue
    split
    · rename_i herror
      exact .holds hmeets (.inr herror)
    · rename_i herror
      split
      · rename_i hlimit
        exact .stops hmeets hvalue (Bool.eq_false_iff.2 herror) hlimit
      · rename_i hlimit
        exact .follows hmeets hvalue (Bool.eq_false_iff.2 herror) (Int.not_le.1 hlimit)

theorem goes_step (h : w.step graph limit = some t) : w.Goes graph limit w.evaluation? t := by
  unfold step at h
  unfold evaluation?
  split at h
  · cases h
  · rename_i above hlevels
    cases h
    rw [hlevels]
    exact .leaves hlevels
  · rename_i a rest above hlevels
    rw [hlevels]
    dsimp only
    split at h
    · rename_i hvisited
      cases h
      rw [if_pos hvisited]
      exact .skips hlevels (List.contains_iff_mem.1 hvisited)
    · rename_i hvisited
      cases h
      rw [if_neg hvisited]
      have hfresh : a ∉ w.visited := fun hmem => hvisited (List.contains_iff_mem.2 hmem)
      cases hc : w.grid.get? a with
      | none =>
        have hvisit : w.visit graph limit a rest above =
            { w with visited := a :: w.visited, levels := rest :: above } := by simp [visit, hc]
        rw [hvisit]
        exact .passes hlevels hfresh (by simp [hc])
      | some c =>
        cases hf : c.formula with
        | none =>
          have hvisit : w.visit graph limit a rest above =
              { w with visited := a :: w.visited, levels := rest :: above } := by
            simp [visit, hc, hf]
          rw [hvisit]
          dsimp only
          rw [hf]
          refine .passes hlevels hfresh fun d hd => ?_
          rw [hc] at hd
          exact Option.some.inj hd ▸ hf
        | some formula =>
          dsimp only
          rw [hf]
          exact goes_visit (e := ⟨w.grid, a, formula, w.tokens⟩) ⟨hlevels, hfresh, hc, hf, rfl, rfl⟩

/-- A step stores the result of the evaluation that it makes, and does nothing else to the grid. -/
theorem Goes.grid {e? : Option Evaluation} (h : w.Goes graph limit e? t) :
    t.grid = Evaluation.storeAll w.grid e?.toList := by
  cases h with
  | leaves => rfl
  | skips => rfl
  | passes => rfl
  | holds hmeets => exact congrArg (Grid.set · _ _) hmeets.grid
  | stops hmeets => exact congrArg (Grid.set · _ _) hmeets.grid
  | follows hmeets => exact congrArg (Grid.set · _ _) hmeets.grid

/-- What every step preserves, with the evaluations made so far, holds of a whole walk. -/
theorem run_evaluations (graph : DependencyGraph Address Reference) (limit : Int)
    {p : List Evaluation → Walk → Prop}
    (hstep : ∀ done w e? t, w.Goes graph limit e? t → p done w → p (done ++ e?.toList) t)
    (done : List Evaluation) {w : Walk} (hw : p done w) :
    p (done ++ w.evaluations graph limit) (w.run graph limit) := by
  induction w using Walk.run.induct graph limit generalizing done with
  | case1 w t hnext ih =>
    rw [run_some hnext, evaluations_some hnext, ← List.append_assoc]
    exact ih _ (hstep _ _ _ _ (goes_step hnext) hw)
  | case2 w hend =>
    rw [run_none hend, evaluations_none hend, List.append_nil]
    exact hw

/-- A walk ends when no dependents are left. -/
theorem levels_run (graph : DependencyGraph Address Reference) (limit : Int) (w : Walk) :
    (w.run graph limit).levels = [] := by
  induction w using Walk.run.induct graph limit with
  | case1 w t hnext ih =>
    rw [run_some hnext]
    exact ih
  | case2 w hend =>
    rw [run_none hend]
    unfold step at hend
    split at hend
    · assumption
    · cases hend
    · split at hend <;> cases hend

/-- A walk stores the results of its evaluations, and does nothing else to the grid. -/
theorem grid_run (graph : DependencyGraph Address Reference) (limit : Int) (w : Walk) :
    (w.run graph limit).grid = Evaluation.storeAll w.grid (w.evaluations graph limit) := by
  refine run_evaluations graph limit (p := fun done t => t.grid = Evaluation.storeAll w.grid done)
    (fun done v e? t hgoes hv => ?_) [] rfl
  rw [hgoes.grid, hv, ← Evaluation.storeAll_append]

end Walk

/-! ## Sweeps -/

namespace Grid

/-- The evaluations of a sweep over formula cells, in order. -/
def sweepEvaluations (g : Grid) (tokens : Tokens) : List (Address × String) → List Evaluation
  | [] => []
  | (a, formula) :: rest =>
    let e : Evaluation := ⟨g, a, formula, tokens⟩
    e :: e.stored.sweepEvaluations e.known rest

/-- A sweep stores the results of its evaluations, and does nothing else to the grid. -/
theorem grid_recalculate (g : Grid) (tokens : Tokens) (cells : List (Address × String)) :
    (g.recalculate tokens cells).1 = Evaluation.storeAll g (g.sweepEvaluations tokens cells) := by
  induction cells generalizing g tokens with
  | nil => rfl
  | cons p rest ih =>
    obtain ⟨a, formula⟩ := p
    rw [recalculate_cons, Evaluation.calculate_eq, ih]
    rfl

/-! ## Commits -/

variable {g : Grid} {limit : Int} {a : Address} {text : String}

/-- The walk that carries the change of a cell on. -/
def walkFrom (g : Grid) (a : Address) (tokens : Tokens) : Walk :=
  { grid := g, tokens := tokens, visited := [a],
    levels := [g.dependencyGraph.dependentsOf (.cell a)] }

theorem propagate_eq (g : Grid) (a : Address) (limit : Int) (tokens : Tokens) :
    g.propagate a limit tokens = (g.walkFrom a tokens).run g.dependencyGraph limit := rfl

/-- Whether a commit shows a change that is no error, which is then carried on. -/
def carriesOn (g : Grid) (a : Address) (text : String) : Bool :=
  !((Delta.between a ((g.get? a).getD Cell.empty) (g.enter a (strip text)).1).isEmpty ||
    (g.enter a (strip text)).1.isError)

/-- The grid after a text was entered and before the change is carried on. -/
def entered (g : Grid) (a : Address) (text : String) : Grid := g.set a (g.enter a (strip text)).1

/-- The tokens that are known once a text was entered. -/
def enteredTokens (g : Grid) (a : Address) (text : String) : Tokens := (g.enter a (strip text)).2.2

/-- The evaluations of dependents in a commit, in order. -/
def dependentEvaluations (g : Grid) (limit : Int) (a : Address) (text : String) :
    List Evaluation :=
  if g.carriesOn a text then
    ((g.entered a text).walkFrom a (g.enteredTokens a text)).evaluations
      (g.entered a text).dependencyGraph limit
  else []

/-- The evaluations of a commit, in order: the formula that is entered, and those of dependents. -/
def commitEvaluations (g : Grid) (limit : Int) (a : Address) (text : String) : List Evaluation :=
  (if Formula.isFormula (strip text) then [⟨g, a, strip text, []⟩] else []) ++
    g.dependentEvaluations limit a text

/-- A commit enters a cell and, if there is a change that is no error, carries it on. -/
theorem grid_commit_cases (g : Grid) (limit : Int) (a : Address) (text : String) :
    (g.commit limit a text).1 =
      if g.carriesOn a text then
        ((g.entered a text).propagate a limit (g.enteredTokens a text)).grid
      else g.entered a text := by
  rcases g.commit_cases limit a text with ⟨hquiet, heq⟩ | ⟨hgoes, heq⟩ <;> rw [heq, carriesOn]
  · rw [hquiet]
    rfl
  · rw [hgoes]
    rfl

theorem grid_commit_of_carriesOn (h : g.carriesOn a text = true) (limit : Int) :
    (g.commit limit a text).1 =
      ((g.entered a text).propagate a limit (g.enteredTokens a text)).grid := by
  rw [grid_commit_cases, if_pos h]

/-- The cell of a formula that is entered shows the result of its evaluation. -/
theorem enter_formula {e : Evaluation} (h : Formula.isFormula (strip text) = true)
    (he : e = ⟨g, a, strip text, []⟩) :
    (g.enter a (strip text)).1 = e.cell ∧ g.enteredTokens a text = e.known := by
  have hcalculate : g.calculate a (strip text) [] = (e.result, e.cell, e.known) := by
    rw [he]
    exact Evaluation.calculate_eq ..
  unfold enteredTokens enter
  rw [if_pos h, hcalculate]
  cases e.result <;> exact ⟨rfl, rfl⟩

/-- Nothing is evaluated to enter any other text. -/
theorem enter_other (h : Formula.isFormula (strip text) = false) :
    (g.enter a (strip text)).1.formula = none ∧ g.enteredTokens a text = [] := by
  unfold enteredTokens enter
  rw [if_neg (Bool.eq_false_iff.1 h)]
  split
  · exact ⟨rfl, rfl⟩
  · split <;> exact ⟨rfl, rfl⟩

/-- The grid in which a commit stores the results of its evaluations: a text that is no formula is
entered before. -/
def commitStart (g : Grid) (a : Address) (text : String) : Grid :=
  if Formula.isFormula (strip text) then g else g.entered a text

/-- A commit enters a text and stores the results of its evaluations, and does nothing else to the
grid. -/
theorem grid_commit (g : Grid) (limit : Int) (a : Address) (text : String) :
    (g.commit limit a text).1 =
      Evaluation.storeAll (g.commitStart a text) (g.commitEvaluations limit a text) := by
  have hdependents : (g.commit limit a text).1 =
      Evaluation.storeAll (g.entered a text) (g.dependentEvaluations limit a text) := by
    rw [grid_commit_cases, dependentEvaluations]
    cases g.carriesOn a text with
    | true => exact Walk.grid_run _ limit ((g.entered a text).walkFrom a (g.enteredTokens a text))
    | false => rfl
  rw [hdependents, commitStart, commitEvaluations, Evaluation.storeAll_append]
  cases hformula : Formula.isFormula (strip text) with
  | true =>
    rw [if_pos rfl, if_pos rfl, entered, (enter_formula hformula rfl).1]
    rfl
  | false =>
    rw [if_neg Bool.false_ne_true, if_neg Bool.false_ne_true]
    rfl

end Grid

end Spreadsheet
