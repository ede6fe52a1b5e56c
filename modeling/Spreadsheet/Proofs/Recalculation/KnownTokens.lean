import Spreadsheet.Proofs.Recalculation.Evaluations

/-!
# Tokens of other evaluations

A sweep and a commit hand the tokens that are known after an evaluation to the next one, whether
it gave a number or failed. They do not show: each evaluation has the result that it has with no
tokens at all (`Evaluation.Plain`).

The tokens are sound for the grid as it is at each evaluation, because in between nothing happens
but that results are stored, and no formula reads those. There is one exception. The formula that a
commit enters is evaluated before it stands in its cell. Its own cell is then the start of the path,
so that whatever leads back to it fails, and nothing is ever read from it (`evaluate_congr_origin`).
-/

namespace Spreadsheet

open Text

/-! ## The evaluated cell is not read -/

variable {g k : Grid} {origin : Reference} {body : String} {tokens : Tokens}

/-- Grids that differ at most in what is on the path already take the same step. -/
theorem Search.step_congr {s : Search}
    (h : ∀ r, r ∉ chainOf (s.top :: s.below) → g.find? r = k.find? r) : s.step g = s.step k := by
  unfold Search.step
  cases s.top.pending with
  | nil => rfl
  | cons r rest =>
    dsimp only
    by_cases hon : onPath (s.top :: s.below) r = true
    · rw [if_pos hon, if_pos hon]
    · rw [if_neg hon, if_neg hon, h r fun hr => hon (onPath_iff.2 hr)]

theorem Search.run_congr {s : Search} (h : ∀ r, r ≠ origin → g.find? r = k.find? r)
    (hinv : s.Inv g origin body) : s.run g = s.run k := by
  induction s using Search.run.induct (g := g) with
  | case1 s t hstep ih =>
    have hsame : s.step g = s.step k :=
      step_congr fun r hr => h r fun heq => hr (heq ▸ hinv.onTrack.origin_mem)
    rw [run_of_step_inl hstep, run_of_step_inl (hsame.symm.trans hstep), ih (hinv.step hstep)]
  | case2 s result hstep =>
    have hsame : s.step g = s.step k :=
      step_congr fun r hr => h r fun heq => hr (heq ▸ hinv.onTrack.origin_mem)
    rw [run_of_step_inr hstep, run_of_step_inr (hsame.symm.trans hstep)]

namespace Grid

/-- **What the evaluated cell holds does not matter**, to the result or to the tokens known then. -/
theorem evaluate_congr_origin (h : ∀ r, r ≠ origin → g.find? r = k.find? r) (body : String) :
    g.evaluate body origin [] = k.evaluate body origin [] := by
  unfold evaluate
  cases hframe : Frame.ofBody origin body with
  | error e => rfl
  | ok frame =>
    have hinv : Search.Inv g origin body ⟨frame, [], []⟩ := by
      unfold Frame.ofBody at hframe
      split at hframe
      · cases hframe
      · rename_i hforeign
        cases hframe
        exact ⟨.outermost rfl rfl ⟨by simpa using hforeign, [], rfl, by simp⟩, .nil g origin body⟩
    dsimp only
    rw [Search.run_congr h hinv]

theorem evaluateFormula_set (g : Grid) (a : Address) (c : Cell) (formula : String) :
    (g.set a c).evaluateFormula formula (.cell a) [] = g.evaluateFormula formula (.cell a) [] := by
  refine evaluate_congr_origin (fun r hr => ?_) _
  cases r with
  | unknown text => rfl
  | cell b =>
    have hba : b ≠ a := fun hab => hr (congrArg _ hab)
    exact get?_set_of_ne hba

end Grid

/-! ## Single evaluations -/

namespace Evaluation

variable {e : Evaluation}

/-- The result is the one that the formula has without any tokens where it stands in its cell. -/
def Plain (e : Evaluation) : Prop :=
  ∀ c : Cell, c.formula = some e.formula →
    e.result = ((e.grid.set e.address c).evaluateFormula e.formula (.cell e.address) []).1

/-- The formula that is evaluated stands in its cell. -/
def Stands (e : Evaluation) : Prop :=
  ∃ c, e.grid.get? e.address = some c ∧ c.formula = some e.formula

theorem plain_iff : e.Plain ↔ e.result = (e.grid.evaluateFormula e.formula (.cell e.address) []).1 := by
  unfold Plain
  constructor
  · intro h
    rw [h ⟨"", some e.formula, .none⟩ rfl, Grid.evaluateFormula_set]
  · intro h c _
    rw [h, Grid.evaluateFormula_set]

/-- An evaluation without tokens is plain. -/
theorem plain_of_nil (h : e.tokens = []) : e.Plain := by
  rw [plain_iff]
  unfold result
  rw [h]

theorem Stands.plain (h : e.Stands) (htokens : SoundTokens e.grid e.tokens) : e.Plain := by
  obtain ⟨c, hc, hf⟩ := h
  rw [plain_iff]
  unfold result
  have hfind : e.grid.find? (.cell e.address) = some c := hc
  exact (Grid.evaluateFormula_sound htokens hfind hf).1

/-- Where a formula stands in its cell, the tokens known after its evaluation are sound for the grid
in which its result is stored. -/
theorem Stands.sound_known (h : e.Stands) (htokens : SoundTokens e.grid e.tokens) :
    SoundTokens e.stored e.known := by
  obtain ⟨c, hc, hf⟩ := h
  have hinput : e.cell.input = c.input := by
    rw [cell, Cell.input_of_formula (Cell.formula_ofResult e.formula e.result),
      Cell.input_of_formula hf]
  have hfind : e.grid.find? (.cell e.address) = some c := hc
  have hsound := (Grid.evaluateFormula_sound htokens hfind hf).2
  unfold known
  exact (Grid.SameInputs.set hc hinput).symm.soundTokens hsound

/-- So they are after the evaluation of a formula that is only about to be entered. -/
theorem sound_known_of_nil (h : e.tokens = []) (ha : e.grid.Contains e.address) :
    SoundTokens e.stored e.known := by
  have hfind : e.stored.find? (.cell e.address) = some e.cell :=
    (Grid.get?_set ha).trans (if_pos rfl)
  have hsound := (Grid.evaluateFormula_sound (.nil e.stored) hfind
    (Cell.formula_ofResult e.formula e.result)).2
  unfold known
  rw [h, ← Grid.evaluateFormula_set e.grid e.address e.cell]
  exact hsound

end Evaluation

/-! ## Walks, sweeps and commits -/

namespace Walk

variable {graph : DependencyGraph Address Reference} {limit : Int} {w t : Walk}
  {e? : Option Evaluation}

/-- The tokens of a walk stay sound with each step, and what it evaluates is plain. -/
theorem Goes.sound (h : w.Goes graph limit e? t) (hw : SoundTokens w.grid w.tokens) :
    SoundTokens t.grid t.tokens ∧ ∀ e ∈ e?, e.Plain := by
  have hmeets : ∀ {e : Evaluation} {c : Cell} {rest : List Address} {above : List (List Address)},
      w.Meets e c rest above → SoundTokens e.stored e.known ∧ ∀ f ∈ some e, f.Plain := by
    intro e c rest above hm
    have hstands : e.Stands := ⟨c, hm.grid ▸ hm.cell, hm.formula⟩
    have hsound : SoundTokens e.grid e.tokens := by rwa [hm.grid, hm.tokens]
    refine ⟨hstands.sound_known hsound, fun f hf => ?_⟩
    obtain rfl := Option.mem_some_iff.1 hf
    exact hstands.plain hsound
  cases h with
  | leaves => exact ⟨hw, nofun⟩
  | skips => exact ⟨hw, nofun⟩
  | passes => exact ⟨hw, nofun⟩
  | holds hm => exact hmeets hm
  | stops hm => exact hmeets hm
  | follows hm => exact hmeets hm

/-- A walk that starts with sound tokens makes plain evaluations only. -/
theorem plain_evaluations (hw : SoundTokens w.grid w.tokens) :
    ∀ e ∈ w.evaluations graph limit, e.Plain := by
  refine (run_evaluations graph limit
    (p := fun done t => SoundTokens t.grid t.tokens ∧ ∀ e ∈ done, e.Plain)
    (fun done v e? t hgoes hv => ?_) [] ⟨hw, nofun⟩).2
  obtain ⟨htokens, hplain⟩ := hgoes.sound hv.1
  refine ⟨htokens, fun e he => ?_⟩
  rcases List.mem_append.1 he with he | he
  · exact hv.2 e he
  · exact hplain e (Option.mem_toList.1 he)

end Walk

namespace Grid

variable {limit : Int} {a : Address} {text : String} {cells : List (Address × String)}

/-- A sweep over cells of the grid that starts with sound tokens makes plain evaluations only. -/
theorem plain_sweepEvaluations (hlists : g.Lists cells) (htokens : SoundTokens g tokens) :
    ∀ e ∈ g.sweepEvaluations tokens cells, e.Plain := by
  induction cells generalizing g tokens with
  | nil => exact nofun
  | cons p rest ih =>
    obtain ⟨a, formula⟩ := p
    have hstands : Evaluation.Stands ⟨g, a, formula, tokens⟩ := hlists _ List.mem_cons_self
    have hrest := (hlists.store tokens).2
    rw [Evaluation.calculate_eq] at hrest
    intro e he
    rw [sweepEvaluations] at he
    rcases List.mem_cons.1 he with rfl | he
    · exact hstands.plain htokens
    · exact ih hrest (hstands.sound_known htokens) e he

theorem soundTokens_walkFrom (h : SoundTokens g tokens) (a : Address) :
    SoundTokens (g.walkFrom a tokens).grid (g.walkFrom a tokens).tokens := h

theorem soundTokens_entered (ha : g.Contains a) (text : String) :
    SoundTokens (g.entered a text) (g.enteredTokens a text) := by
  cases hformula : Formula.isFormula (strip text) with
  | false =>
    rw [(enter_other hformula).2]
    exact .nil _
  | true =>
    obtain ⟨hcell, hknown⟩ := enter_formula (e := ⟨g, a, strip text, []⟩) hformula rfl
    rw [entered, hcell, hknown]
    exact Evaluation.sound_known_of_nil (e := ⟨g, a, strip text, []⟩) rfl ha

theorem plain_commitEvaluations (ha : g.Contains a) (limit : Int) (text : String) :
    ∀ e ∈ g.commitEvaluations limit a text, e.Plain := by
  intro e he
  rw [commitEvaluations, List.mem_append] at he
  rcases he with he | he
  · split at he
    · rw [List.mem_singleton.1 he]
      exact Evaluation.plain_of_nil rfl
    · cases he
  · unfold dependentEvaluations at he
    split at he
    · exact Walk.plain_evaluations (soundTokens_walkFrom (soundTokens_entered ha text) a) e he
    · cases he

end Grid

end Spreadsheet
