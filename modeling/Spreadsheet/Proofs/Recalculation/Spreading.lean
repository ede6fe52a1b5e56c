import Spreadsheet.Proofs.Recalculation.Visits

/-!
# How far a commit is carried on

A commit enters a cell and evaluates some of its dependents. Whatever it evaluates shows its result
afterwards, and every other cell is as it was. If what a cell shows has changed and is no error, all
formulas that read the cell are evaluated, too (`Carried`). Nothing is evaluated beyond that: a
dependent that shows the same as before, or an error, hides the change from its own dependents.

**Theorem (`carried_commit`).** This holds of every commit whose limit is at least the number of
cells. The limit then stops nothing, because a walk is never deeper than it has visited cells.

Whatever the limit is, a commit evaluates each dependent at most once (`nodup_touched`), and counts
what it evaluates (`propagated_commit`).
-/

namespace Spreadsheet

open Text

/-! ## What a commit leaves -/

namespace Grid

/-- What a cell shows has changed and is no error. -/
def Changes (g k : Grid) (a : Address) : Prop :=
  ∃ c d, g.get? a = some c ∧ k.get? a = some d ∧ d.value ≠ c.value ∧ d.isError = false

/-- The cells of a list were evaluated, which changed one grid into another. -/
structure Carried (g k : Grid) (evaluated : List Address) : Prop where
  size : g.SameSize k
  untouched : ∀ b, b ∉ evaluated → k.get? b = g.get? b
  shows : ∀ b ∈ evaluated, ∀ c, k.get? b = some c → c.Shows k b
  carried : ∀ b ∈ evaluated, g.Changes k b → ∀ u, k.Reads (.cell u) (.cell b) → u ∈ evaluated

theorem SameInputs.reads {g k : Grid} (h : g.SameInputs k) {r s : Reference} :
    g.Reads r s ↔ k.Reads r s :=
  ⟨(h.agreeAt r).reads, (h.symm.agreeAt r).reads⟩

end Grid

/-! ## The walk -/

namespace Walk

variable {start : Grid} {a : Address} {limit : Int} {done : List Evaluation} {w t : Walk}
  {e : Evaluation} {c : Cell} {rest : List Address} {above levels : List (List Address)}

/-- What holds between two steps of a walk from a cell that was entered in a grid. -/
structure Spreads (start : Grid) (a : Address) (done : List Evaluation) (w : Walk) : Prop where
  calculated : start.Calculated w.grid
  tokens : SoundTokens w.grid w.tokens
  /-- The cells that were evaluated are those that were visited, the entered one apart. -/
  visited : w.visited = (done.map Evaluation.address).reverse ++ [a]
  nodup : w.visited.Nodup
  inside : ∀ b ∈ w.visited, start.Contains b
  depth : w.levels.length ≤ w.visited.length
  pending : w.Within fun b => ∃ r, start.Reads (.cell b) r
  untouched : ∀ b, b ∉ done.map Evaluation.address → w.grid.get? b = start.get? b
  shows : ∀ b ∈ w.visited, ∀ c, w.grid.get? b = some c → c.Shows w.grid b
  carried : ∀ b ∈ w.visited, b = a ∨ start.Changes w.grid b → ∀ u,
    start.Reads (.cell u) (.cell b) → u ∈ w.visited ∨ ∃ l ∈ w.levels, u ∈ l

/-! ### Evaluating a dependent -/

theorem Meets.stands (hm : w.Meets e c rest above) : e.Stands := ⟨c, hm.grid ▸ hm.cell, hm.formula⟩

theorem Meets.sound (hm : w.Meets e c rest above) (h : SoundTokens w.grid w.tokens) :
    SoundTokens e.grid e.tokens := by
  rw [hm.grid, hm.tokens]
  exact h

/-- The dependent shows its result from then on. -/
theorem Meets.shows (hm : w.Meets e c rest above) (h : SoundTokens w.grid w.tokens) :
    e.cell.Shows e.stored e.address := by
  intro formula hf
  obtain rfl := Option.some.inj ((Cell.formula_ofResult e.formula e.result).symm.trans hf)
  have hplain := Evaluation.plain_iff.1 (hm.stands.plain (hm.sound h))
  rw [hm.grid, ← hm.calculated.sameInputs.evaluateFormula] at hplain
  rw [Evaluation.cell, hplain]

/-- A step stores results, and what it evaluates is the formula of its cell. -/
theorem Goes.calculated {graph : DependencyGraph Address Reference} {e? : Option Evaluation}
    (h : w.Goes graph limit e? t) :
    w.grid.Calculated t.grid ∧
      ∀ e ∈ e?, ∃ c, w.grid.get? e.address = some c ∧ c.formula = some e.formula := by
  have hmeets : ∀ {e : Evaluation} {c : Cell} {rest : List Address} {above : List (List Address)},
      w.Meets e c rest above → w.grid.Calculated e.stored ∧
        ∀ f ∈ some e, ∃ c, w.grid.get? f.address = some c ∧ c.formula = some f.formula := by
    intro e c rest above hm
    refine ⟨hm.calculated, fun f hf => ?_⟩
    obtain rfl := Option.mem_some_iff.1 hf
    exact ⟨c, hm.cell, hm.formula⟩
  cases h with
  | leaves => exact ⟨.refl, nofun⟩
  | skips => exact ⟨.refl, nofun⟩
  | passes => exact ⟨.refl, nofun⟩
  | holds hm => exact hmeets hm
  | stops hm => exact hmeets hm
  | follows hm => exact hmeets hm

/-- A walk evaluates formulas that stood in their cells at the start. -/
theorem formula_of_mem_evaluations {graph : DependencyGraph Address Reference}
    (he : e ∈ w.evaluations graph limit) :
    ∃ c, w.grid.get? e.address = some c ∧ c.formula = some e.formula := by
  refine (run_evaluations graph limit
    (p := fun done t => w.grid.Calculated t.grid ∧
      ∀ e ∈ done, ∃ c, w.grid.get? e.address = some c ∧ c.formula = some e.formula)
    (fun done v e? t hgoes hv => ?_) [] ⟨.refl, nofun⟩).2 e he
  obtain ⟨hstored, hformula⟩ := hgoes.calculated
  refine ⟨hv.1.trans hstored, fun f hf => ?_⟩
  rcases List.mem_append.1 hf with hf | hf
  · exact hv.2 f hf
  · obtain ⟨c, hc, hcf⟩ := hformula f (Option.mem_toList.1 hf)
    exact hv.1.sameInputs.get?_formula hc hcf

namespace Spreads

/-- A walk that spreads a change visits as every walk does. -/
theorem visits (h : w.Spreads start a done) : w.Visits start a done :=
  ⟨h.calculated, h.visited, h.nodup, h.inside, h.depth, h.pending, h.untouched⟩

/-- What is looked at next, after an evaluation. -/
def Next (start : Grid) (e : Evaluation) (c : Cell) (rest : List Address)
    (above levels : List (List Address)) : Prop :=
  levels = start.dependencyGraph.dependentsOf (.cell e.address) :: rest :: above ∨
    levels = rest :: above ∧ (e.cell.value = c.value ∨ e.cell.isError = true)

theorem Next.visits (hnext : Next start e c rest above levels) :
    Visits.Next start e rest above levels :=
  hnext.imp_right And.left

theorem shows_record (h : w.Spreads start a done) (hm : w.Meets e c rest above) {b : Address}
    (hb : b ∈ e.address :: w.visited) {d : Cell} (hd : e.stored.get? b = some d) :
    d.Shows e.stored b := by
  rw [hm.get?_stored] at hd
  by_cases hbe : b = e.address
  · rw [if_pos hbe] at hd
    rw [← Option.some.inj hd, hbe]
    exact hm.shows h.tokens
  · rw [if_neg hbe] at hd
    have hvisited : b ∈ w.visited := (List.mem_cons.1 hb).resolve_left hbe
    exact hm.calculated.sameInputs.symm.shows (h.shows b hvisited d hd)

theorem carried_record (h : w.Spreads start a done) (hm : w.Meets e c rest above)
    (hnext : Next start e c rest above levels)
    (hseen : ∀ u, (u ∈ w.visited ∨ ∃ l ∈ w.levels, u ∈ l) →
      u ∈ e.address :: w.visited ∨ ∃ l ∈ levels, u ∈ l)
    {b u : Address} (hb : b ∈ e.address :: w.visited)
    (hchange : b = a ∨ start.Changes e.stored b) (hu : start.Reads (.cell u) (.cell b)) :
    u ∈ e.address :: w.visited ∨ ∃ l ∈ levels, u ∈ l := by
  by_cases hbe : b = e.address
  · have ha : a ∈ w.visited := h.visited ▸ List.mem_append_right _ List.mem_cons_self
    rcases hchange with hba | ⟨c', d, hc', hd, hvalue, hclean⟩
    · exact absurd (hbe ▸ hba ▸ ha) hm.fresh
    · rw [hbe, h.visits.before hm] at hc'
      rw [hm.get?_stored, if_pos hbe] at hd
      obtain rfl := Option.some.inj hc'
      obtain rfl := Option.some.inj hd
      rcases hnext with rfl | ⟨-, hsame | herror⟩
      · exact .inr ⟨_, List.mem_cons_self, Grid.mem_dependentsOf.2 (hbe ▸ hu)⟩
      · exact absurd hsame hvalue
      · rw [herror] at hclean
        cases hclean
  · have hvisited : b ∈ w.visited := (List.mem_cons.1 hb).resolve_left hbe
    refine hseen u (h.carried b hvisited (hchange.imp_right ?_) u hu)
    rintro ⟨c', d, hc', hd, hdiffers⟩
    rw [hm.get?_stored, if_neg hbe] at hd
    exact ⟨c', d, hc', hd, hdiffers⟩

/-- The evaluation of a dependent. -/
theorem record (h : w.Spreads start a done) (hm : w.Meets e c rest above)
    (hnext : Next start e c rest above levels)
    (hseen : ∀ u, (u ∈ w.visited ∨ ∃ l ∈ w.levels, u ∈ l) →
      u ∈ e.address :: w.visited ∨ ∃ l ∈ levels, u ∈ l) :
    Spreads start a (done ++ [e]) (w.record e c levels) :=
  { h.visits.record hm hnext.visits with
    tokens := hm.stands.sound_known (hm.sound h.tokens)
    shows := fun _ hb _ hd => h.shows_record hm hb hd
    carried := fun _ hb hchange _ hu => h.carried_record hm hnext hseen hb hchange hu }

/-! ### Steps -/

/-- Levels may be left, and dependents on them that were visited. -/
theorem drop (h : w.Spreads start a done) (hvisits : Visits start a done { w with levels := levels })
    (hseen : ∀ u, (u ∈ w.visited ∨ ∃ l ∈ w.levels, u ∈ l) → u ∈ w.visited ∨ ∃ l ∈ levels, u ∈ l) :
    Spreads start a done { w with levels := levels } :=
  { hvisits with
    tokens := h.tokens
    shows := h.shows
    carried := fun b hb hchange u hu => hseen u (h.carried b hb hchange u hu) }

theorem step (h : w.Spreads start a done) (hlimit : start.size ≤ limit) {e? : Option Evaluation}
    (hgoes : w.Goes start.dependencyGraph limit e? t) :
    t.Spreads start a (done ++ e?.toList) := by
  have hvisits := h.visits.step hgoes
  have hseen : ∀ u, _ → _ := fun u => hgoes.seen (u := u)
  cases hgoes with
  | leaves =>
    rw [Option.toList_none, List.append_nil] at hvisits ⊢
    exact h.drop hvisits hseen
  | skips =>
    rw [Option.toList_none, List.append_nil] at hvisits ⊢
    exact h.drop hvisits hseen
  | passes hlevels _ hnone =>
    obtain ⟨c, formula, hc, hf⟩ := h.visits.formula_of_pending hlevels
    rw [hnone c hc] at hf
    cases hf
  | holds hm hquiet => exact h.record hm (.inr ⟨rfl, hquiet⟩) hseen
  | stops hm _ _ hstop =>
    have hdepth := h.visits.depth_lt hm
    omega
  | follows hm _ _ => exact h.record hm (.inl rfl) hseen

end Spreads

end Walk

/-! ## The commit -/

namespace Grid

variable {g : Grid} {a : Address} {limit : Int} {text : String}

/-- The cells that a commit evaluates, the one that is entered first. -/
def touched (g : Grid) (limit : Int) (a : Address) (text : String) : List Address :=
  a :: (g.dependentEvaluations limit a text).map Evaluation.address

/-! ### What a commit evaluates -/

theorem get?_entered (ha : g.Contains a) (text : String) {b : Address} (hba : b ≠ a) :
    (g.entered a text).get? b = g.get? b :=
  (get?_set ha).trans (if_neg hba)

theorem dependentEvaluations_of_carriesOn (h : g.carriesOn a text = true) (limit : Int) :
    g.dependentEvaluations limit a text =
      ((g.entered a text).walkFrom a (g.enteredTokens a text)).evaluations
        (g.entered a text).dependencyGraph limit :=
  if_pos h

theorem dependentEvaluations_of_not_carriesOn (h : g.carriesOn a text = false) (limit : Int) :
    g.dependentEvaluations limit a text = [] :=
  if_neg (Bool.eq_false_iff.1 h)

/-- The walk that carries the entered cell on. -/
theorem visits_entered (ha : g.Contains a) (limit : Int) (text : String) :
    let walk := (g.entered a text).propagate a limit (g.enteredTokens a text)
    walk.Visits (g.entered a text) a
        (((g.entered a text).walkFrom a (g.enteredTokens a text)).evaluations
          (g.entered a text).dependencyGraph limit) ∧
      (g.size ≤ limit → walk.stops = []) := by
  have hsize : (g.entered a text).size = g.size := size_set g a _
  rw [← hsize]
  exact visits_propagate (contains_set.2 ha : (g.entered a text).Contains a) limit _

/-- A commit evaluates no cell twice, and the entered cell not again. -/
theorem nodup_touched (ha : g.Contains a) (limit : Int) (text : String) :
    (g.touched limit a text).Nodup ∧ ∀ b ∈ g.touched limit a text, g.Contains b := by
  unfold touched
  cases hcarries : g.carriesOn a text with
  | false =>
    rw [dependentEvaluations_of_not_carriesOn hcarries]
    refine ⟨List.nodup_cons.2 ⟨List.not_mem_nil, List.nodup_nil⟩, fun b hb => ?_⟩
    rw [List.mem_singleton.1 hb]
    exact ha
  | true =>
    rw [dependentEvaluations_of_carriesOn hcarries]
    have hvisits := (visits_entered ha limit text).1
    refine ⟨hvisits.nodup_evaluated, fun b hb => contains_set.1 (hvisits.inside b ?_)⟩
    exact hvisits.mem_visited.2 (List.mem_cons.1 hb)

/-- What a commit evaluates are formulas that stand in the grid. -/
theorem formula_of_mem_dependentEvaluations (ha : g.Contains a) {e : Evaluation}
    (he : e ∈ g.dependentEvaluations limit a text) :
    ∃ c, g.get? e.address = some c ∧ c.formula = some e.formula := by
  have hother : e.address ≠ a := by
    rintro rfl
    exact (List.nodup_cons.1 (nodup_touched ha limit text).1).1 (List.mem_map_of_mem he)
  cases hcarries : g.carriesOn a text with
  | false =>
    rw [dependentEvaluations_of_not_carriesOn hcarries] at he
    cases he
  | true =>
    rw [dependentEvaluations_of_carriesOn hcarries] at he
    obtain ⟨c, hc, hf⟩ := Walk.formula_of_mem_evaluations he
    exact ⟨c, (get?_entered ha text hother).symm.trans hc, hf⟩

/-- A commit reports how many dependents it evaluates. -/
theorem propagated_commit (g : Grid) (limit : Int) (a : Address) (text : String) :
    (g.commit limit a text).2.propagated = (g.dependentEvaluations limit a text).length := by
  cases hcarries : g.carriesOn a text with
  | false =>
    rw [dependentEvaluations_of_not_carriesOn hcarries]
    exact (result_of_not_carriesOn hcarries limit).2.1
  | true =>
    rw [dependentEvaluations_of_carriesOn hcarries, (result_of_carriesOn hcarries limit).2.1,
      propagate_eq, Walk.count_run]
    exact Nat.zero_add _

/-- A limit of at least the number of cells stops nothing. -/
theorem stops_commit (ha : g.Contains a) (hlimit : g.size ≤ limit) (text : String) :
    (g.commit limit a text).2.stops = [] := by
  cases hcarries : g.carriesOn a text with
  | false => exact (result_of_not_carriesOn hcarries limit).2.2
  | true =>
    rw [(result_of_carriesOn hcarries limit).2.2]
    exact (visits_entered ha limit text).2 hlimit

/-! ### How far a change is carried on -/

theorem shows_entered (ha : g.Contains a) (text : String) {c : Cell}
    (hc : (g.entered a text).get? a = some c) : c.Shows (g.entered a text) a := by
  have hget : (g.entered a text).get? a = some (g.enter a (strip text)).1 :=
    (get?_set ha).trans (if_pos rfl)
  obtain rfl := Option.some.inj (hget.symm.trans hc)
  intro formula hf
  cases hformula : Formula.isFormula (strip text) with
  | false =>
    rw [(enter_other hformula).1] at hf
    cases hf
  | true =>
    obtain ⟨hcell, -⟩ := enter_formula (e := ⟨g, a, strip text, []⟩) hformula rfl
    rw [hcell] at hf ⊢
    obtain rfl := Option.some.inj ((Cell.formula_ofResult _ _).symm.trans hf)
    have hplain := Evaluation.plain_iff.1
      (Evaluation.plain_of_nil (e := ⟨g, a, strip text, []⟩) rfl)
    rw [entered, evaluateFormula_set, Evaluation.cell, hplain]

theorem spreads_walkFrom (ha : g.Contains a) (text : String) :
    ((g.entered a text).walkFrom a (g.enteredTokens a text)).Spreads (g.entered a text) a [] :=
  { visits_walkFrom (contains_set.2 ha : (g.entered a text).Contains a) (g.enteredTokens a text) with
    tokens := soundTokens_walkFrom (soundTokens_entered ha text) a
    shows := by
      intro b hb c hc
      obtain rfl := List.mem_singleton.1 hb
      exact shows_entered ha text hc
    carried := by
      intro b hb _ u hu
      obtain rfl := List.mem_singleton.1 hb
      exact .inr ⟨_, List.mem_cons_self, mem_dependentsOf.2 hu⟩ }

/-- The entered cell does not show a change if the commit is not carried on. -/
theorem not_changes_entered (ha : g.Contains a) {text : String}
    (h : g.carriesOn a text = false) : ¬ g.Changes (g.entered a text) a := by
  rintro ⟨c, d, hc, hd, hvalue, hclean⟩
  have hget : (g.entered a text).get? a = some (g.enter a (strip text)).1 :=
    (get?_set ha).trans (if_pos rfl)
  obtain rfl := Option.some.inj (hget.symm.trans hd)
  unfold carriesOn at h
  rw [hc, Option.getD_some, Delta.between, if_neg hvalue, hclean] at h
  cases h

/-- What a walk has done when it ends. -/
theorem carried_of_spreads (ha : g.Contains a) {text : String} {done : List Evaluation} {w : Walk}
    (h : w.Spreads (g.entered a text) a done) (hend : w.levels = []) :
    g.Carried w.grid (a :: done.map Evaluation.address) := by
  have hmem : ∀ b, b ∈ a :: done.map Evaluation.address ↔ b ∈ w.visited := by
    intro b
    rw [h.visited, List.mem_append, List.mem_reverse, List.mem_singleton, List.mem_cons, or_comm]
  have hsize : w.grid.SameSize g := h.calculated.sameSize.trans (sameSize_set g a _)
  refine ⟨hsize.symm, fun b hb => ?_, fun b hb => h.shows b ((hmem b).1 hb),
    fun b hb hchange u hu => ?_⟩
  · rw [List.mem_cons, not_or] at hb
    exact (h.untouched b hb.2).trans (get?_entered ha text hb.1)
  · have hchange' : b = a ∨ (g.entered a text).Changes w.grid b := by
      by_cases hba : b = a
      · exact .inl hba
      · obtain ⟨c, d, hc, hd, hdiffers⟩ := hchange
        exact .inr ⟨c, d, (get?_entered ha text hba).trans hc, hd, hdiffers⟩
    have hu' := h.calculated.sameInputs.reads.1 hu
    rcases h.carried b ((hmem b).1 hb) hchange' u hu' with hvisited | ⟨l, hl, -⟩
    · exact (hmem u).2 hvisited
    · rw [hend] at hl
      cases hl

/-- **How far a commit is carried on**, if no limit stops it. -/
theorem carried_commit (ha : g.Contains a) (hlimit : g.size ≤ limit) (text : String) :
    g.Carried (g.commit limit a text).1 (g.touched limit a text) := by
  rw [grid_commit_cases, touched, dependentEvaluations]
  cases hcarries : g.carriesOn a text with
  | false =>
    have hsize : (g.entered a text).SameSize g := sameSize_set g a _
    refine ⟨hsize.symm, fun b hb => ?_, ?_, ?_⟩
    · exact get?_entered ha text fun hba => hb (hba ▸ List.mem_cons_self)
    · intro b hb c hc
      obtain rfl := List.mem_singleton.1 hb
      exact shows_entered ha text hc
    · intro b hb hchange
      obtain rfl := List.mem_singleton.1 hb
      exact absurd hchange (not_changes_entered ha hcarries)
  | true =>
    have hsize : ((g.entered a text).size : Int) ≤ limit := by
      rw [entered, size_set]
      exact hlimit
    have h := Walk.run_evaluations (g.entered a text).dependencyGraph limit
      (p := Walk.Spreads (g.entered a text) a)
      (fun _ _ _ _ hgoes hv => hv.step hsize hgoes) [] (spreads_walkFrom ha text)
    rw [if_pos rfl, if_pos rfl, propagate_eq]
    exact carried_of_spreads ha h (Walk.levels_run ..)

/-- Of the cells that a commit evaluates, only the entered one may be left without a formula. -/
theorem eq_enter_of_literal (ha : g.Contains a) {u : Address} (hu : u ∈ g.touched limit a text)
    {c : Cell} (hc : (g.commit limit a text).1.get? u = some c) (hf : c.formula = none) :
    c = (g.enter a (strip text)).1 := by
  have hcalculated := calculated_commit g limit a text
  have hua : u = a := by
    by_contra hne
    obtain ⟨e, he, rfl⟩ := List.mem_map.1 ((List.mem_cons.1 hu).resolve_left hne)
    obtain ⟨d, hd, hdf⟩ := formula_of_mem_dependentEvaluations ha he
    rw [← get?_entered ha text hne] at hd
    obtain ⟨d', hd', hdf'⟩ := hcalculated.sameInputs.symm.get?_formula hd hdf
    obtain rfl := Option.some.inj (hc.symm.trans hd')
    rw [hf] at hdf'
    cases hdf'
  have hentered := hcalculated.get?_literal hc hf
  rw [get?_set ha, if_pos hua] at hentered
  exact (Option.some.inj hentered).symm

/-- What a commit evaluates is marked afterwards, whatever the grid held before. -/
theorem marked_touched (ha : g.Contains a) (hlimit : g.size ≤ limit) (text : String) :
    ∀ u ∈ g.touched limit a text, ∀ c, (g.commit limit a text).1.get? u = some c → c.Marked := by
  intro u hu c hc
  cases hf : c.formula with
  | some formula =>
    rw [(carried_commit ha hlimit text).shows u hu c hc formula hf]
    exact Cell.marked_ofResult formula _
  | none =>
    rw [eq_enter_of_literal ha hu hc hf]
    exact marked_enter g a (strip text)

end Grid

end Spreadsheet
