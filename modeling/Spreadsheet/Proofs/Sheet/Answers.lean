import Spreadsheet.Proofs.Evaluation.Definedness
import Spreadsheet.Proofs.Sheet.Calls

/-!
# Commits to a sheet are answered

A text is committed to the cell that an address names. If it names none, this is told and nothing is
done; otherwise the commit has a result, whatever the text is and whatever the cells hold.

**Main facts.** No evaluation lacks anything, on whatever grid and with whatever tokens
(`Evaluation.lack?_eq_none`), and a walk finds the cells of all dependents that it looks at
(`Walk.firstLack?_walkFrom`). So a commit that names a cell is answered, and any other one is refused
(`answers_commitNamed`).
-/

namespace Spreadsheet

open Text

/-! ## Evaluations -/

namespace Evaluation

variable {e : Evaluation} {x : Float}

/-- What an evaluation lacks, to compute its number or to show it. -/
def lack? (e : Evaluation) : Option Lack :=
  match Frame.ofBody (.cell e.address) (Formula.body e.formula) with
  | .error _ => none
  | .ok frame =>
    match Search.firstLack? e.grid ⟨frame, [], e.tokens⟩ with
    | some lack => some lack
    | none =>
      match e.result with
      | .error _ => none
      | .ok x => Number.lack? x

theorem isFinite_of_result (h : e.result = .ok x) : Number.isFinite x = true := by
  unfold result at h
  exact Grid.isFinite_of_evaluateFormula h

/-- **No evaluation lacks anything.** -/
theorem lack?_eq_none (e : Evaluation) : e.lack? = none := by
  unfold lack?
  split
  · rfl
  · rename_i frame hframe
    rw [(Search.provided_start hframe e.tokens).firstLack?_eq_none]
    dsimp only
    split
    · rfl
    · rename_i x hx
      exact Number.lack?_of_isFinite (isFinite_of_result hx)

end Evaluation

/-! ## Walks -/

namespace Walk

variable {graph : DependencyGraph Address Reference} {limit : Int} {w t : Walk}

/-- What is lacking for the next step: the cell of a dependent that was not visited. -/
def lack? (w : Walk) : Option Lack :=
  match w.levels with
  | (a :: _) :: _ =>
    if w.visited.contains a then none
    else if (w.grid.get? a).isNone then some (.cell a)
    else none
  | _ => none

/-- The first thing that is lacking on a walk. -/
def firstLack? (graph : DependencyGraph Address Reference) (limit : Int) (w : Walk) : Option Lack :=
  match w.lack? with
  | some lack => some lack
  | none =>
    match _h : w.step graph limit with
    | some next => firstLack? graph limit next
    | none => none
  termination_by w.measure
  decreasing_by exact measure_step _h

/-- All cells of the dependents that are still to be looked at are there. -/
theorem lack?_eq_none (h : w.Within w.grid.Contains) : w.lack? = none := by
  unfold lack?
  split
  · rename_i a rest above hlevels
    have ha : w.grid.Contains a := h (a :: rest) (hlevels ▸ List.mem_cons_self) a List.mem_cons_self
    obtain ⟨c, hc⟩ := Grid.get?_of_contains ha
    rw [hc]
    split <;> rfl
  · rfl

theorem contains_step (h : w.step graph limit = some t) (a : Address) :
    t.grid.Contains a ↔ w.grid.Contains a := by
  obtain ⟨hrows, hcolumns⟩ := (calculated_step h).sameSize
  rw [Grid.Contains, hrows, hcolumns]
  rfl

/-- The step and the run of a walk that stays among the cells of the grid. -/
theorem firstLack?_eq_none (hclosed : ∀ r, ∀ a ∈ graph.dependentsOf r, w.grid.Contains a)
    (h : w.Within w.grid.Contains) : w.firstLack? graph limit = none := by
  induction w using Walk.run.induct graph limit with
  | case1 w t hstep ih =>
    have hsame : t.grid.Contains = w.grid.Contains :=
      funext fun a => propext (contains_step hstep a)
    have hwithin := (step_within (fun b _ => hclosed (.cell b)) h hstep).1
    rw [firstLack?, lack?_eq_none h]
    dsimp only
    split
    · rename_i u hu
      rw [hstep] at hu
      obtain rfl := Option.some.inj hu
      exact ih (hsame ▸ hclosed) (hsame ▸ hwithin)
    · rfl
  | case2 w hstep =>
    rw [firstLack?, lack?_eq_none h]
    dsimp only
    split
    · rename_i u hu
      rw [hstep] at hu
      cases hu
    · rfl

/-- **A walk from a cell finds all that it looks at.** -/
theorem firstLack?_walkFrom (g : Grid) (a : Address) (tokens : Tokens) (limit : Int) :
    (g.walkFrom a tokens).firstLack? g.dependencyGraph limit = none := by
  have hclosed : ∀ r, ∀ b ∈ g.dependencyGraph.dependentsOf r, g.Contains b := by
    intro r b hb
    obtain ⟨c, formula, hc, -⟩ := Grid.mem_dependentsOf.1 hb
    exact Grid.contains_of_get? hc
  refine firstLack?_eq_none hclosed fun l hl b hb => ?_
  rw [Grid.walkFrom, List.mem_singleton] at hl
  exact hclosed _ b (hl ▸ hb)

end Walk

/-! ## Commits -/

/-- What a commit lacks, in its evaluations or on the walk that carries the change on. -/
def Grid.commitLacks (g : Grid) (limit : Int) (a : Address) (text : String) : List Lack :=
  (g.commitEvaluations limit a text).filterMap Evaluation.lack? ++
    if g.carriesOn a text then
      (((g.entered a text).walkFrom a (g.enteredTokens a text)).firstLack?
        (g.entered a text).dependencyGraph limit).toList
    else []

theorem Grid.commitLacks_eq_nil (g : Grid) (limit : Int) (a : Address) (text : String) :
    g.commitLacks limit a text = [] := by
  have hevaluations : (g.commitEvaluations limit a text).filterMap Evaluation.lack? = [] :=
    List.filterMap_eq_nil_iff.2 fun e _ => e.lack?_eq_none
  rw [commitLacks, hevaluations, Walk.firstLack?_walkFrom, List.nil_append, Option.toList_none,
    ite_self]

namespace Sheet

/-- Commits a text to the cell that an address names. An address that names none is refused. -/
def commitNamed (s : Sheet) (address text : String) : Sheet × Except MissingCell CommitResult :=
  match s.grid.locate address with
  | .error missing => (s, .error missing)
  | .ok a => ((s.commit a text).1, .ok (s.commit a text).2)

/-- A commit is answered: nothing is lacking, and all that is done is to enter the text and to store
the results of evaluations, which are finite numbers or failures. -/
structure Answers (s : Sheet) (a : Address) (text : String)
    (done : Sheet × Except MissingCell CommitResult) : Prop where
  result : ∃ r, done.2 = .ok r ∧ r.address = a
  provided : s.grid.commitLacks s.depthLimit a text = []
  grid : done.1.grid = Evaluation.storeAll (s.grid.commitStart a text)
    (s.grid.commitEvaluations s.depthLimit a text)
  finite : ∀ e ∈ s.grid.commitEvaluations s.depthLimit a text, ∀ x, e.result = .ok x →
    Number.isFinite x = true

theorem address_commit (s : Sheet) (a : Address) (text : String) :
    (s.commit a text).2.address = a := by
  rw [result_commit]
  rcases s.grid.commit_cases s.depthLimit a text with ⟨-, heq⟩ | ⟨-, heq⟩ <;> rw [heq]

/-- **Commits are answered or refused.** Which of the two is decided by the address alone, and a
commit that is refused changes nothing. -/
theorem answers_commitNamed (s : Sheet) (address text : String) :
    (∃ a, Address.parse address = .ok a ∧ s.grid.Contains a ∧
        s.Answers a text (s.commitNamed address text)) ∨
      ((∀ a, Address.parse address = .ok a → ¬ s.grid.Contains a) ∧
        ∃ missing, s.commitNamed address text = (s, .error missing)) := by
  unfold commitNamed
  cases hlocate : s.grid.locate address with
  | ok a =>
    obtain ⟨hparse, ha⟩ := contains_of_locate hlocate
    refine .inl ⟨a, hparse, ha, ⟨⟨_, rfl, s.address_commit a text⟩, Grid.commitLacks_eq_nil .., ?_,
      fun e _ x => Evaluation.isFinite_of_result⟩⟩
    rw [grid_commit]
    exact Grid.grid_commit s.grid s.depthLimit a text
  | error missing =>
    refine .inr ⟨fun a hparse ha => ?_, missing, rfl⟩
    rw [Grid.locate, hparse] at hlocate
    dsimp only at hlocate
    rw [if_pos ha] at hlocate
    cases hlocate

end Sheet

end Spreadsheet
