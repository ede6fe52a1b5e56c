import Spreadsheet.Proofs.Recalculation.Evaluations

/-!
# Computing in bounded steps

Searches and walks recurse along a descent that does not reduce when proofs are checked. With a bound
on the number of their steps they are structural, and runs on given inputs can be decided. A bounded
computation gives what the unbounded one gives, or nothing if the bound is too low.
-/

namespace Spreadsheet

open Text

/-! ## Evaluation -/

/-- The result of a search that ends within a number of steps. -/
def Search.runWithin (g : Grid) : Nat → Search → Option (Except FormulaError Float × Tokens)
  | 0, _ => none
  | n + 1, s =>
    match s.step g with
    | .inl next => runWithin g n next
    | .inr result => some (result, s.tokens)

theorem Search.run_of_runWithin {g : Grid} {n : Nat} {s : Search}
    {found : Except FormulaError Float × Tokens} (h : s.runWithin g n = some found) :
    s.run g = found := by
  induction n generalizing s with
  | zero => cases h
  | succ n ih =>
    unfold runWithin at h
    cases hstep : s.step g with
    | inl t =>
      rw [hstep] at h
      rw [run_of_step_inl hstep, ih h]
    | inr result =>
      rw [hstep] at h
      rw [run_of_step_inr hstep, Option.some.inj h]

namespace Grid

variable {g k : Grid} {n : Nat} {a : Address} {formula : String} {tokens : Tokens} {limit : Int}

/-- The value of a formula if it is found within a number of steps. -/
def evaluateFormulaWithin (g : Grid) (n : Nat) (formula : String) (origin : Reference)
    (tokens : Tokens) : Option (Except FormulaError Float × Tokens) :=
  match Frame.ofBody origin (Formula.body formula) with
  | .error e => some (.error e, tokens)
  | .ok frame =>
    (Search.runWithin g n ⟨frame, [], tokens⟩).map fun
      | (.ok x, known) => (.ok x, (origin, Number.token x) :: known)
      | (.error e, known) => (.error e, known)

theorem evaluateFormula_of_within {origin : Reference}
    {found : Except FormulaError Float × Tokens}
    (h : g.evaluateFormulaWithin n formula origin tokens = some found) :
    g.evaluateFormula formula origin tokens = found := by
  unfold evaluateFormulaWithin at h
  unfold evaluateFormula evaluate
  cases hframe : Frame.ofBody origin (Formula.body formula) with
  | error e =>
    rw [hframe] at h
    exact Option.some.inj h
  | ok frame =>
    rw [hframe] at h
    obtain ⟨⟨result, known⟩, hrun, heq⟩ := Option.map_eq_some_iff.1 h
    dsimp only
    rw [Search.run_of_runWithin hrun]
    cases result <;> exact heq

/-- The cell of a formula and the tokens known then, if they are found within a number of steps. -/
def calculateWithin (g : Grid) (n : Nat) (a : Address) (formula : String) (tokens : Tokens) :
    Option (Cell × Tokens) :=
  (g.evaluateFormulaWithin n formula (.cell a) tokens).map fun (result, known) =>
    (Cell.ofResult formula result, known)

theorem calculate_of_within {found : Cell × Tokens}
    (h : g.calculateWithin n a formula tokens = some found) :
    (g.calculate a formula tokens).2 = found := by
  obtain ⟨⟨result, known⟩, hevaluate, heq⟩ := Option.map_eq_some_iff.1 h
  unfold calculate
  rw [evaluateFormula_of_within hevaluate]
  exact heq

/-- The entered cell and the tokens known then, if they are found within a number of steps. -/
def enterWithin (g : Grid) (n : Nat) (a : Address) (text : String) : Option (Cell × Tokens) :=
  if Formula.isFormula text then g.calculateWithin n a text []
  else some ((g.enter a text).1, (g.enter a text).2.2)

theorem enter_of_within {text : String} {found : Cell × Tokens}
    (h : g.enterWithin n a text = some found) :
    ((g.enter a text).1, (g.enter a text).2.2) = found := by
  unfold enterWithin at h
  cases hformula : Formula.isFormula text with
  | false =>
    rw [hformula] at h
    exact Option.some.inj h
  | true =>
    rw [if_pos hformula] at h
    have hcalculate := calculate_of_within h
    unfold enter
    rw [if_pos hformula]
    generalize g.calculate a text [] = calculated at hcalculate ⊢
    obtain ⟨result, cell, known⟩ := calculated
    cases result <;> exact hcalculate

end Grid

/-! ## Walks -/

namespace Walk

variable {graph : DependencyGraph Address Reference} {limit : Int} {n m : Nat} {w t : Walk}

/-- A visit whose evaluation ends within a number of steps. -/
def visitWithin (graph : DependencyGraph Address Reference) (limit : Int) (n : Nat) (w : Walk)
    (a : Address) (rest : List Address) (above : List (List Address)) : Option Walk :=
  let w := { w with visited := a :: w.visited, levels := rest :: above }
  match w.grid.get? a with
  | none => some w
  | some before =>
    match before.formula with
    | none => some w
    | some formula =>
      (w.grid.calculateWithin n a formula w.tokens).map fun (cell, known) =>
        let w := { w with
          grid := w.grid.set a cell
          tokens := known
          count := w.count + 1
          deltas := w.deltas ++ Delta.between a before cell }
        if cell.value = before.value then w
        else if cell.isError then w
        else
          let depth := above.length + 1
          if limit ≤ depth then { w with stops := w.stops ++ [depth] }
          else { w with levels := graph.dependentsOf (.cell a) :: rest :: above }

theorem visit_of_within {a : Address} {rest : List Address} {above : List (List Address)}
    (h : w.visitWithin graph limit n a rest above = some t) :
    w.visit graph limit a rest above = t := by
  unfold visitWithin at h
  dsimp only at h
  cases hc : w.grid.get? a with
  | none =>
    simp only [hc] at h
    simp only [visit, hc]
    exact Option.some.inj h
  | some before =>
    cases hf : before.formula with
    | none =>
      simp only [hc, hf] at h
      simp only [visit, hc, hf]
      exact Option.some.inj h
    | some formula =>
      simp only [hc, hf] at h
      obtain ⟨⟨cell, known⟩, hcalculate, heq⟩ := Option.map_eq_some_iff.1 h
      obtain ⟨result, hcell⟩ : ∃ result,
          w.grid.calculate a formula w.tokens = (result, cell, known) :=
        ⟨_, Prod.ext rfl (Grid.calculate_of_within hcalculate)⟩
      simp only [visit, hc, hf, hcell]
      exact heq

/-- A walk that ends within a number of steps, each with an evaluation within another number. -/
def runWithin (graph : DependencyGraph Address Reference) (limit : Int) (n : Nat) :
    Nat → Walk → Option Walk
  | 0, _ => none
  | m + 1, w =>
    match w.levels with
    | [] => some w
    | [] :: above => runWithin graph limit n m { w with levels := above }
    | (a :: rest) :: above =>
      if w.visited.contains a then runWithin graph limit n m { w with levels := rest :: above }
      else (w.visitWithin graph limit n a rest above).bind (runWithin graph limit n m)

theorem run_of_runWithin (h : w.runWithin graph limit n m = some t) : w.run graph limit = t := by
  induction m generalizing w with
  | zero => cases h
  | succ m ih =>
    unfold runWithin at h
    split at h
    · rename_i hlevels
      rw [run_none (by simp only [step, hlevels])]
      exact Option.some.inj h
    · rename_i above hlevels
      rw [run_some (by simp only [step, hlevels]; rfl), ih h]
    · rename_i a rest above hlevels
      split at h
      · rename_i hvisited
        rw [run_some (by simp only [step, hlevels, hvisited, if_true]; rfl), ih h]
      · rename_i hvisited
        obtain ⟨v, hvisit, hrun⟩ := Option.bind_eq_some_iff.1 h
        have hstep : w.step graph limit = some v := by
          simp only [step, hlevels, hvisited, visit_of_within hvisit]
          rfl
        rw [run_some hstep, ih hrun]

/-- What is found of a walk that ends within a number of steps. -/
theorem any_run {p : Walk → Bool} (h : (w.runWithin graph limit n m).any p = true) :
    p (w.run graph limit) = true := by
  cases hrun : w.runWithin graph limit n m with
  | none =>
    rw [hrun] at h
    cases h
  | some t =>
    rw [hrun, Option.any_some] at h
    rw [run_of_runWithin hrun]
    exact h

end Walk

/-! ## Commits -/

namespace Grid

variable {g k : Grid} {n : Nat} {a : Address} {limit : Int}

/-- The grid after a commit that is computed within a number of steps. -/
def commitWithin (g : Grid) (n : Nat) (limit : Int) (a : Address) (text : String) : Option Grid :=
  (g.enterWithin n a (strip text)).bind fun (cell, tokens) =>
    if (Delta.between a ((g.get? a).getD Cell.empty) cell).isEmpty || cell.isError then
      some (g.set a cell)
    else
      (((g.set a cell).walkFrom a tokens).runWithin (g.set a cell).dependencyGraph limit n n).map
        Walk.grid

theorem commit_of_within {text : String} (h : g.commitWithin n limit a text = some k) :
    (g.commit limit a text).1 = k := by
  obtain ⟨⟨cell, tokens⟩, henter, hcommit⟩ := Option.bind_eq_some_iff.1 h
  obtain ⟨hcell, htokens⟩ := Prod.mk.inj (enter_of_within henter)
  rw [grid_commit_cases, carriesOn, entered, enteredTokens, hcell, htokens]
  dsimp only at hcommit
  split at hcommit
  · rename_i hquiet
    rw [hquiet]
    exact Option.some.inj hcommit
  · rename_i hquiet
    rw [Bool.eq_false_iff.2 hquiet]
    obtain ⟨w, hrun, hw⟩ := Option.map_eq_some_iff.1 hcommit
    rw [Bool.not_false, if_pos rfl, propagate_eq, Walk.run_of_runWithin hrun]
    exact hw

end Grid

end Spreadsheet
