import Mathlib.Data.List.Nodup
import Mathlib.Data.List.Perm.Subperm
import Spreadsheet.Proofs.Recalculation.KnownTokens

/-!
# What a walk visits

A walk over dependents visits no cell twice, and what it visits are the cells whose formulas it
evaluates, apart from the cell that it starts from (`Walk.Visits`). So each dependent is evaluated as
it was at the start, and a walk has never more levels than it has visited cells. All this holds
whatever the limit is, and on any grid, whether references form cycles or not.

A walk is a finite run of steps (`Walk.runs_run`), and for each formula that it evaluates we keep the
depth at which the walk meets its cell (`Walk.meetings`).
-/

namespace Spreadsheet

open Text

/-! ## The number of addresses -/

theorem Grid.length_addresses (g : Grid) : g.addresses.length = g.size :=
  Address.length_block g.columns_le

/-- A grid has no more cells than its size. -/
theorem Grid.length_le_size {g : Grid} {l : List Address} (hnodup : l.Nodup)
    (h : ∀ a ∈ l, g.Contains a) : l.length ≤ g.size := by
  rw [← g.length_addresses]
  exact (List.subperm_of_subset hnodup fun a ha => Grid.mem_addresses.2 (h a ha)).length_le

theorem Grid.size_set (g : Grid) (a : Address) (c : Cell) : (g.set a c).size = g.size := by
  obtain ⟨hrows, hcolumns⟩ := sameSize_set g a c
  unfold size
  rw [hrows, hcolumns]

/-! ## The walk -/

namespace Walk

variable {start : Grid} {a : Address} {limit : Int} {done : List Evaluation} {w t : Walk}
  {e : Evaluation} {c : Cell} {rest : List Address} {above levels : List (List Address)}
  {graph : DependencyGraph Address Reference}

/-! ### Evaluating a dependent -/

theorem Meets.get?_stored (hm : w.Meets e c rest above) (b : Address) :
    e.stored.get? b = if b = e.address then some e.cell else w.grid.get? b := by
  have hstored : e.stored = w.grid.set e.address e.cell := congrArg (Grid.set · _ _) hm.grid
  rw [hstored]
  exact Grid.get?_set (Grid.contains_of_get? hm.cell)

theorem Meets.calculated (hm : w.Meets e c rest above) : w.grid.Calculated e.stored := by
  have hstored : e.stored = w.grid.set e.address e.cell := congrArg (Grid.set · _ _) hm.grid
  rw [hstored]
  exact .store e.result .refl hm.cell hm.formula

/-- What holds between two steps of a walk from a cell, of the cells that it visits. -/
structure Visits (start : Grid) (a : Address) (done : List Evaluation) (w : Walk) : Prop where
  calculated : start.Calculated w.grid
  /-- The cells that were evaluated are those that were visited, the first one apart. -/
  visited : w.visited = (done.map Evaluation.address).reverse ++ [a]
  nodup : w.visited.Nodup
  inside : ∀ b ∈ w.visited, start.Contains b
  depth : w.levels.length ≤ w.visited.length
  pending : w.Within fun b => ∃ r, start.Reads (.cell b) r
  untouched : ∀ b, b ∉ done.map Evaluation.address → w.grid.get? b = start.get? b

namespace Visits

theorem mem_visited (h : w.Visits start a done) {b : Address} :
    b ∈ w.visited ↔ b = a ∨ b ∈ done.map Evaluation.address := by
  rw [h.visited, List.mem_append, List.mem_reverse, List.mem_singleton, or_comm]

/-- The cell that the walk starts from and those that it evaluates are different cells. -/
theorem nodup_evaluated (h : w.Visits start a done) :
    (a :: done.map Evaluation.address).Nodup := by
  have hnodup := h.nodup
  rwa [h.visited, ← List.reverse_cons, List.nodup_reverse] at hnodup

/-- The next dependent is as it was at the start. -/
theorem before (h : w.Visits start a done) (hm : w.Meets e c rest above) :
    start.get? e.address = some c := by
  have hfresh : e.address ∉ done.map Evaluation.address := fun hmem =>
    hm.fresh (h.mem_visited.2 (.inr hmem))
  exact (h.untouched _ hfresh).symm.trans hm.cell

/-- A walk is less deep than the grid has cells when it comes to a cell. -/
theorem depth_lt (h : w.Visits start a done) (hm : w.Meets e c rest above) :
    above.length + 1 < start.size := by
  have hvisited : (e.address :: w.visited).length ≤ start.size := by
    refine Grid.length_le_size (List.nodup_cons.2 ⟨hm.fresh, h.nodup⟩) fun b hb => ?_
    rcases List.mem_cons.1 hb with rfl | hb
    · exact Grid.contains_of_get? (h.before hm)
    · exact h.inside b hb
  have hdepth := h.depth
  rw [hm.levels] at hdepth
  simp only [List.length_cons] at hdepth hvisited
  omega

/-- The next dependent is a formula cell. -/
theorem formula_of_pending (h : w.Visits start a done) {b : Address}
    (hlevels : w.levels = (b :: rest) :: above) :
    ∃ c formula, w.grid.get? b = some c ∧ c.formula = some formula := by
  have hmem : (b :: rest) ∈ w.levels := hlevels ▸ List.mem_cons_self
  obtain ⟨r, c, formula, hc, hf, -⟩ := h.pending _ hmem b List.mem_cons_self
  obtain ⟨d, hd, hdf⟩ := h.calculated.sameInputs.symm.get?_formula hc hf
  exact ⟨d, formula, hd, hdf⟩

/-- The levels after the evaluation of a dependent: its own dependents may come first. -/
def Next (start : Grid) (e : Evaluation) (rest : List Address)
    (above levels : List (List Address)) : Prop :=
  levels = start.dependencyGraph.dependentsOf (.cell e.address) :: rest :: above ∨
    levels = rest :: above

theorem pending_record (h : w.Visits start a done) (hm : w.Meets e c rest above)
    (hnext : Next start e rest above levels) :
    ∀ l ∈ levels, ∀ b ∈ l, ∃ r, start.Reads (.cell b) r := by
  have hrest : ∀ l ∈ rest :: above, ∀ b ∈ l, ∃ r, start.Reads (.cell b) r := by
    intro l hl b hb
    rcases List.mem_cons.1 hl with rfl | hl
    · exact h.pending _ (hm.levels ▸ List.mem_cons_self) b (List.mem_cons_of_mem _ hb)
    · exact h.pending l (hm.levels ▸ List.mem_cons_of_mem _ hl) b hb
  rcases hnext with rfl | rfl
  · intro l hl b hb
    rcases List.mem_cons.1 hl with rfl | hl
    · exact ⟨_, Grid.mem_dependentsOf.1 hb⟩
    · exact hrest l hl b hb
  · exact hrest

/-- The evaluation of a dependent. -/
theorem record (h : w.Visits start a done) (hm : w.Meets e c rest above)
    (hnext : Next start e rest above levels) :
    Visits start a (done ++ [e]) (w.record e c levels) where
  calculated := h.calculated.trans hm.calculated
  visited := by simp [Walk.record, h.visited]
  nodup := List.nodup_cons.2 ⟨hm.fresh, h.nodup⟩
  inside := by
    intro b hb
    rcases List.mem_cons.1 hb with rfl | hb
    · exact Grid.contains_of_get? (h.before hm)
    · exact h.inside b hb
  depth := by
    have hdepth := h.depth
    rw [hm.levels] at hdepth
    show levels.length ≤ w.visited.length + 1
    rcases hnext with rfl | rfl <;> simp only [List.length_cons] at hdepth ⊢ <;> omega
  pending := h.pending_record hm hnext
  untouched := by
    intro b hb
    rw [List.map_append, List.mem_append, not_or] at hb
    refine (hm.get?_stored b).trans ?_
    rw [if_neg fun hbe => hb.2 (List.mem_singleton.2 hbe)]
    exact h.untouched b hb.1

/-- Levels may be left, and dependents on them. -/
theorem drop (h : w.Visits start a done) (hlength : levels.length ≤ w.levels.length)
    (hwithin : ∀ l ∈ levels, ∀ b ∈ l, ∃ l' ∈ w.levels, b ∈ l') :
    Visits start a done { w with levels := levels } where
  calculated := h.calculated
  visited := h.visited
  nodup := h.nodup
  inside := h.inside
  depth := Nat.le_trans hlength h.depth
  pending := by
    intro l hl b hb
    obtain ⟨l', hl', hb'⟩ := hwithin l hl b hb
    exact h.pending l' hl' b hb'
  untouched := h.untouched

/-- **The step lemma**, for any limit. -/
theorem step (h : w.Visits start a done) {e? : Option Evaluation}
    (hgoes : w.Goes start.dependencyGraph limit e? t) :
    t.Visits start a (done ++ e?.toList) := by
  cases hgoes with
  | @leaves above hlevels =>
    rw [Option.toList_none, List.append_nil]
    refine h.drop ?_ fun l hl b hb => ⟨l, hlevels ▸ List.mem_cons_of_mem _ hl, hb⟩
    rw [hlevels]
    exact Nat.le_succ _
  | @skips b rest above hlevels _ =>
    rw [Option.toList_none, List.append_nil]
    refine h.drop ?_ fun l hl x hx => ?_
    · rw [hlevels]
      exact Nat.le_refl _
    · rcases List.mem_cons.1 hl with rfl | hl
      · exact ⟨b :: l, hlevels ▸ List.mem_cons_self, List.mem_cons_of_mem _ hx⟩
      · exact ⟨l, hlevels ▸ List.mem_cons_of_mem _ hl, hx⟩
  | passes hlevels _ hnone =>
    obtain ⟨c, formula, hc, hf⟩ := h.formula_of_pending hlevels
    rw [hnone c hc] at hf
    cases hf
  | holds hm _ => exact h.record hm (.inr rfl)
  | stops hm _ _ _ =>
    have hrecord := h.record hm (.inr rfl)
    exact { hrecord with }
  | follows hm _ _ => exact h.record hm (.inl rfl)

end Visits

/-! ### Runs -/

/-- The evaluation that the next step makes, with the depth at which the walk meets the cell. -/
def meeting? (w : Walk) : Option (Evaluation × Nat) :=
  w.evaluation?.map fun e => (e, w.levels.length)

/-- The finite runs of a walk, with the evaluations that are made on the way, each with its depth,
and the walk at the end. -/
inductive Runs (graph : DependencyGraph Address Reference) (limit : Int) :
    Walk → List (Evaluation × Nat) → Walk → Prop
  | ends {w : Walk} : w.step graph limit = none → Runs graph limit w [] w
  | goesOn {w t v : Walk} {met : List (Evaluation × Nat)} :
      w.step graph limit = some t → Runs graph limit t met v →
      Runs graph limit w (w.meeting?.toList ++ met) v

/-- The evaluations that a walk makes, in order, with the depths at which it meets the cells. -/
def meetings (graph : DependencyGraph Address Reference) (limit : Int) (w : Walk) :
    List (Evaluation × Nat) :=
  match _h : w.step graph limit with
  | some next => w.meeting?.toList ++ next.meetings graph limit
  | none => []
  termination_by w.measure
  decreasing_by exact measure_step _h

theorem meetings_some (h : w.step graph limit = some t) :
    w.meetings graph limit = w.meeting?.toList ++ t.meetings graph limit := by
  rw [meetings]
  split
  · rename_i u hu
    rw [h] at hu
    cases hu
    rfl
  · rename_i hu
    rw [h] at hu
    cases hu

theorem meetings_none (h : w.step graph limit = none) : w.meetings graph limit = [] := by
  rw [meetings]
  split
  · rename_i u hu
    rw [h] at hu
    cases hu
  · rfl

/-- **Every walk comes to an end.** -/
theorem runs_run (graph : DependencyGraph Address Reference) (limit : Int) (w : Walk) :
    w.Runs graph limit (w.meetings graph limit) (w.run graph limit) := by
  induction w using Walk.run.induct graph limit with
  | case1 w t hstep ih =>
    rw [run_some hstep, meetings_some hstep]
    exact .goesOn hstep ih
  | case2 w hstep =>
    rw [run_none hstep, meetings_none hstep]
    exact .ends hstep

theorem map_fst_meetings (graph : DependencyGraph Address Reference) (limit : Int) (w : Walk) :
    (w.meetings graph limit).map Prod.fst = w.evaluations graph limit := by
  induction w using Walk.run.induct graph limit with
  | case1 w t hstep ih =>
    rw [meetings_some hstep, evaluations_some hstep, List.map_append, ih, meeting?]
    cases w.evaluation? <;> rfl
  | case2 w hstep => rw [meetings_none hstep, evaluations_none hstep, List.map_nil]

/-- What every step preserves, with the evaluations made so far and their depths, holds at the end of
a run. -/
theorem Runs.induction {met : List (Evaluation × Nat)} {v : Walk}
    {p : List (Evaluation × Nat) → Walk → Prop}
    (hstep : ∀ done w e? t, w.Goes graph limit e? t → p done w →
      p (done ++ (e?.map fun e => (e, w.levels.length)).toList) t)
    (h : w.Runs graph limit met v) (done : List (Evaluation × Nat)) (hw : p done w) :
    p (done ++ met) v := by
  induction h generalizing done with
  | ends =>
    rw [List.append_nil]
    exact hw
  | goesOn hnext _ ih =>
    rw [← List.append_assoc]
    exact ih _ (hstep _ _ _ _ (goes_step hnext) hw)

/-! ### What a walk counts -/

theorem Goes.count {e? : Option Evaluation} (h : w.Goes graph limit e? t) :
    t.count = w.count + e?.toList.length := by
  cases h <;> rfl

/-- A walk counts its evaluations. -/
theorem count_run (graph : DependencyGraph Address Reference) (limit : Int) (w : Walk) :
    (w.run graph limit).count = w.count + (w.evaluations graph limit).length := by
  refine run_evaluations graph limit (p := fun done t => t.count = w.count + done.length)
    (fun done v e? t hgoes hv => ?_) [] rfl
  rw [hgoes.count, hv, List.length_append, Nat.add_assoc]

/-- A dependent that was visited or is on a level was visited after a step, or is on a level still. -/
theorem Goes.seen {e? : Option Evaluation} (h : w.Goes graph limit e? t) {u : Address}
    (hu : u ∈ w.visited ∨ ∃ l ∈ w.levels, u ∈ l) : u ∈ t.visited ∨ ∃ l ∈ t.levels, u ∈ l := by
  -- The next dependent is visited then, and all others stay where they are.
  have hnext : ∀ {b : Address} {rest : List Address} {above levels : List (List Address)}
      {visited : List Address}, w.levels = (b :: rest) :: above → b ∈ visited →
      (∀ x ∈ w.visited, x ∈ visited) → (∀ l ∈ rest :: above, l ∈ levels) →
      u ∈ visited ∨ ∃ l ∈ levels, u ∈ l := by
    intro b rest above levels visited hlevels hb hvisited hkept
    rcases hu with hu | ⟨l, hl, hul⟩
    · exact .inl (hvisited u hu)
    · rw [hlevels] at hl
      rcases List.mem_cons.1 hl with rfl | hl
      · rcases List.mem_cons.1 hul with rfl | hul
        · exact .inl hb
        · exact .inr ⟨rest, hkept rest List.mem_cons_self, hul⟩
      · exact .inr ⟨l, hkept l (List.mem_cons_of_mem _ hl), hul⟩
  have hmeets : ∀ {e : Evaluation} {c : Cell} {rest : List Address}
      {above levels : List (List Address)}, w.Meets e c rest above →
      (∀ l ∈ rest :: above, l ∈ levels) →
      u ∈ e.address :: w.visited ∨ ∃ l ∈ levels, u ∈ l := fun hm hkept =>
    hnext hm.levels List.mem_cons_self (fun _ hx => List.mem_cons_of_mem _ hx) hkept
  cases h with
  | @leaves above hlevels =>
    rcases hu with hu | ⟨l, hl, hul⟩
    · exact .inl hu
    · rw [hlevels] at hl
      rcases List.mem_cons.1 hl with rfl | hl
      · cases hul
      · exact .inr ⟨l, hl, hul⟩
  | skips hlevels hvisited => exact hnext hlevels hvisited (fun _ hx => hx) fun _ hl => hl
  | passes hlevels =>
    exact hnext hlevels List.mem_cons_self (fun _ hx => List.mem_cons_of_mem _ hx) fun _ hl => hl
  | holds hm => exact hmeets hm fun _ hl => hl
  | stops hm => exact hmeets hm fun _ hl => hl
  | follows hm => exact hmeets hm fun _ hl => List.mem_cons_of_mem _ hl

/-- A limit of at least the number of cells stops no step. -/
theorem Visits.stops (h : w.Visits start a done) (hlimit : start.size ≤ limit)
    {e? : Option Evaluation} (hgoes : w.Goes graph limit e? t) : t.stops = w.stops := by
  cases hgoes with
  | leaves => rfl
  | skips => rfl
  | passes => rfl
  | holds => rfl
  | stops hm _ _ hstop =>
    have hdepth := h.depth_lt hm
    omega
  | follows => rfl

end Walk

/-! ## Commits -/

namespace Grid

variable {g : Grid} {a : Address} {limit : Int} {text : String} {tokens : Tokens}

theorem visits_walkFrom (ha : g.Contains a) (tokens : Tokens) :
    (g.walkFrom a tokens).Visits g a [] where
  calculated := .refl
  visited := rfl
  nodup := List.nodup_cons.2 ⟨List.not_mem_nil, List.nodup_nil⟩
  inside := by
    intro b hb
    rw [List.mem_singleton.1 hb]
    exact ha
  depth := Nat.le_refl 1
  pending := by
    intro l hl b hb
    rw [List.mem_singleton.1 hl] at hb
    exact ⟨_, mem_dependentsOf.1 hb⟩
  untouched := fun _ _ => rfl

/-- What a walk has visited when it has ended. A limit of at least the number of cells stopped
nothing. -/
theorem visits_propagate (ha : g.Contains a) (limit : Int) (tokens : Tokens) :
    (g.propagate a limit tokens).Visits g a
        ((g.walkFrom a tokens).evaluations g.dependencyGraph limit) ∧
      (g.size ≤ limit → (g.propagate a limit tokens).stops = []) := by
  refine Walk.run_evaluations g.dependencyGraph limit
    (p := fun done t => t.Visits g a done ∧ (g.size ≤ limit → t.stops = []))
    (fun done v e? t hgoes hv => ?_) [] ⟨visits_walkFrom ha tokens, fun _ => rfl⟩
  exact ⟨hv.1.step hgoes, fun hlimit => (hv.1.stops hlimit hgoes).trans (hv.2 hlimit)⟩

/-- What a commit reports if it carries a change on. -/
theorem result_of_carriesOn (h : g.carriesOn a text = true) (limit : Int) :
    let walk := (g.entered a text).propagate a limit (g.enteredTokens a text)
    (g.commit limit a text).2.deltas =
        Delta.between a ((g.get? a).getD Cell.empty) (g.enter a (strip text)).1 ++ walk.deltas ∧
      (g.commit limit a text).2.propagated = walk.count ∧
      (g.commit limit a text).2.stops = walk.stops := by
  rcases g.commit_cases limit a text with ⟨hquiet, -⟩ | ⟨-, heq⟩
  · rw [carriesOn, hquiet] at h
    cases h
  · rw [heq]
    exact ⟨rfl, rfl, rfl⟩

/-- What a commit reports if it does not. -/
theorem result_of_not_carriesOn (h : g.carriesOn a text = false) (limit : Int) :
    (g.commit limit a text).2.deltas =
        Delta.between a ((g.get? a).getD Cell.empty) (g.enter a (strip text)).1 ∧
      (g.commit limit a text).2.propagated = 0 ∧ (g.commit limit a text).2.stops = [] := by
  rcases g.commit_cases limit a text with ⟨-, heq⟩ | ⟨hgoes, -⟩
  · rw [heq]
    exact ⟨rfl, rfl, rfl⟩
  · rw [carriesOn, hgoes] at h
    cases h

end Grid

end Spreadsheet
