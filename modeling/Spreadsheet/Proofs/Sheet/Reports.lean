import Spreadsheet.Proofs.Recalculation.Spreading
import Spreadsheet.Proofs.Sheet.Calls

/-!
# What a call reports

A commit reports how many dependents it evaluated and where the limit stopped it, and commits and
sweeps report the deltas.

**Theorem (`propagation_bounded`).** On any grid, with any limit, carrying a change on is a finite run
of steps. It evaluates formulas of the grid, none of them twice and not the one that was entered, and
the commit reports how many. A limit of at least the number of cells stops nothing.

**Theorem (`difference_call`).** On any grid the deltas of a call are the difference of the grids before
and after (`Grid.Difference`): there is one for each cell that shows another value, and no other. A call
changes no formula and no literal but the committed one.

Storing a cell makes a difference of at most one delta (`Difference.set`). Differences may be appended
if no cell changes twice (`Difference.append`), and a walk evaluates no cell twice, and a sweep lists
none twice.
-/

namespace Spreadsheet

open Text

namespace Grid

variable {g k m : Grid} {a : Address} {c c' : Cell} {deltas deltas' : List Delta} {limit : Int}
  {text : String} {tokens : Tokens} {cells : List (Address × String)}

/-! ## Differences -/

/-- What leads from one grid to another: for each cell that shows another value, and for no other,
one delta with both values and the formula afterwards. -/
structure Difference (g k : Grid) (deltas : List Delta) : Prop where
  nodup : (deltas.map Delta.address).Nodup
  mem_iff : ∀ d, d ∈ deltas ↔ ∃ a c c', g.get? a = some c ∧ k.get? a = some c' ∧
    c'.value ≠ c.value ∧ d = ⟨a, c.value, c'.value, c'.formula⟩

namespace Difference

theorem refl (g : Grid) : g.Difference g [] := by
  refine ⟨List.nodup_nil, fun d => ⟨nofun, ?_⟩⟩
  rintro ⟨a, c, c', hc, hc', hvalue, -⟩
  obtain rfl := Option.some.inj (hc.symm.trans hc')
  exact absurd rfl hvalue

/-- A cell with a delta is not as it was. -/
theorem changed (h : g.Difference k deltas) {d : Delta} (hd : d ∈ deltas) :
    k.get? d.address ≠ g.get? d.address := by
  obtain ⟨a, c, c', hc, hc', hvalue, rfl⟩ := (h.mem_iff d).1 hd
  intro hsame
  rw [hc, hc'] at hsame
  exact hvalue (congrArg Cell.value (Option.some.inj hsame))

/-- Storing a cell. -/
theorem set (hc : g.get? a = some c) (c' : Cell) :
    g.Difference (g.set a c') (Delta.between a c c') := by
  have hget : ∀ b, (g.set a c').get? b = if b = a then some c' else g.get? b := fun b =>
    get?_set (contains_of_get? hc)
  -- A cell with another value is the one that is stored.
  have hstored : ∀ {b e e'}, g.get? b = some e → (g.set a c').get? b = some e' →
      e'.value ≠ e.value → b = a ∧ e = c ∧ e' = c' := by
    intro b e e' he he' hne
    rw [hget] at he'
    by_cases hba : b = a
    · rw [if_pos hba] at he'
      rw [hba, hc] at he
      exact ⟨hba, (Option.some.inj he).symm, (Option.some.inj he').symm⟩
    · rw [if_neg hba, he] at he'
      exact absurd (congrArg Cell.value (Option.some.inj he').symm) hne
  unfold Delta.between
  by_cases hvalue : c'.value = c.value
  · rw [if_pos hvalue]
    refine ⟨List.nodup_nil, fun d => ⟨nofun, ?_⟩⟩
    rintro ⟨b, e, e', he, he', hne, -⟩
    obtain ⟨-, rfl, rfl⟩ := hstored he he' hne
    exact absurd hvalue hne
  · rw [if_neg hvalue]
    refine ⟨List.nodup_cons.2 ⟨List.not_mem_nil, List.nodup_nil⟩, fun d => ?_⟩
    rw [List.mem_singleton]
    constructor
    · rintro rfl
      exact ⟨a, c, c', hc, (hget a).trans (if_pos rfl), hvalue, rfl⟩
    · rintro ⟨b, e, e', he, he', hne, rfl⟩
      obtain ⟨rfl, rfl, rfl⟩ := hstored he he' hne
      rfl

/-- Differences may be appended if no cell changes twice. -/
theorem append (h : g.Difference k deltas) (h' : k.Difference m deltas')
    (honce : ∀ b, k.get? b = g.get? b ∨ m.get? b = k.get? b) :
    g.Difference m (deltas ++ deltas') where
  nodup := by
    rw [List.map_append, List.nodup_append]
    refine ⟨h.nodup, h'.nodup, fun b hb b' hb' heq => ?_⟩
    obtain ⟨d, hd, rfl⟩ := List.mem_map.1 hb
    obtain ⟨d', hd', rfl⟩ := List.mem_map.1 hb'
    rcases honce d.address with hsame | hsame
    · exact h.changed hd hsame
    · exact h'.changed hd' (heq ▸ hsame)
  mem_iff d := by
    rw [List.mem_append, h.mem_iff, h'.mem_iff]
    constructor
    · rintro (⟨a, c, c', hc, hc', hvalue, rfl⟩ | ⟨a, c, c', hc, hc', hvalue, rfl⟩)
      · have hsame : m.get? a = k.get? a := by
          refine (honce a).resolve_left fun hsame => hvalue ?_
          rw [hc, hc'] at hsame
          exact congrArg Cell.value (Option.some.inj hsame)
        exact ⟨a, c, c', hc, hsame.trans hc', hvalue, rfl⟩
      · have hsame : k.get? a = g.get? a := by
          refine (honce a).resolve_right fun hsame => hvalue ?_
          rw [hc, hc'] at hsame
          exact congrArg Cell.value (Option.some.inj hsame)
        exact ⟨a, c, c', hsame.symm.trans hc, hc', hvalue, rfl⟩
    · rintro ⟨a, c, c', hc, hc', hdiffers⟩
      rcases honce a with hsame | hsame
      · exact .inr ⟨a, c, c', hsame.trans hc, hc', hdiffers⟩
      · exact .inl ⟨a, c, c', hc, hsame.symm.trans hc', hdiffers⟩

end Difference

end Grid

/-! ## The walk -/

namespace Walk

variable {start : Grid} {a : Address} {limit : Int} {done : List Evaluation} {w t : Walk}
  {e : Evaluation} {c : Cell} {rest : List Address} {above : List (List Address)}

/-- The evaluation of a dependent adds its delta. -/
theorem Visits.difference_record (h : w.Visits start a done) (hm : w.Meets e c rest above)
    (hdifference : start.Difference w.grid w.deltas) (levels : List (List Address)) :
    start.Difference (w.record e c levels).grid (w.record e c levels).deltas := by
  have hstored : e.stored = w.grid.set e.address e.cell := congrArg (Grid.set · _ _) hm.grid
  have hset : w.grid.Difference e.stored (Delta.between e.address c e.cell) := by
    rw [hstored]
    exact .set hm.cell e.cell
  refine hdifference.append hset fun b => ?_
  by_cases hbe : b = e.address
  · rw [hbe]
    exact .inl (hm.cell.trans (h.before hm).symm)
  · exact .inr ((hm.get?_stored b).trans (if_neg hbe))

/-- **The step lemma** for deltas. -/
theorem Visits.difference_step (h : w.Visits start a done)
    (hdifference : start.Difference w.grid w.deltas) {e? : Option Evaluation}
    {graph : DependencyGraph Address Reference} (hgoes : w.Goes graph limit e? t) :
    start.Difference t.grid t.deltas := by
  cases hgoes with
  | leaves => exact hdifference
  | skips => exact hdifference
  | passes => exact hdifference
  | @holds e c rest above hm => exact h.difference_record hm hdifference (rest :: above)
  | @stops e c rest above hm => exact h.difference_record hm hdifference (rest :: above)
  | follows hm => exact h.difference_record hm hdifference _

end Walk

namespace Grid

variable {g k m : Grid} {a : Address} {c c' : Cell} {deltas deltas' : List Delta} {limit : Int}
  {text : String} {tokens : Tokens} {cells : List (Address × String)}

theorem difference_propagate (ha : g.Contains a) (limit : Int) (tokens : Tokens) :
    g.Difference (g.propagate a limit tokens).grid (g.propagate a limit tokens).deltas := by
  refine (Walk.run_evaluations g.dependencyGraph limit
    (p := fun done t => t.Visits g a done ∧ g.Difference t.grid t.deltas)
    (fun done v e? t hgoes hv => ?_) [] ⟨visits_walkFrom ha tokens, .refl g⟩).2
  exact ⟨hv.1.step hgoes, hv.1.difference_step hv.2 hgoes⟩

/-! ## Commits -/

/-- The deltas of a commit are the difference that it makes. -/
theorem difference_commit (ha : g.Contains a) (limit : Int) (text : String) :
    g.Difference (g.commit limit a text).1 (g.commit limit a text).2.deltas := by
  obtain ⟨c, hc⟩ := get?_of_contains ha
  have hentered : g.Difference (g.entered a text)
      (Delta.between a ((g.get? a).getD Cell.empty) (g.enter a (strip text)).1) := by
    rw [hc]
    exact .set hc _
  rw [grid_commit_cases]
  cases hcarries : g.carriesOn a text with
  | false =>
    rw [(result_of_not_carriesOn hcarries limit).1]
    exact hentered
  | true =>
    have hcontains : (g.entered a text).Contains a := contains_set.2 ha
    rw [(result_of_carriesOn hcarries limit).1, if_pos rfl]
    refine hentered.append (difference_propagate hcontains limit _) fun b => ?_
    by_cases hba : b = a
    · have hvisits := (visits_propagate hcontains limit (g.enteredTokens a text)).1
      rw [hba]
      exact .inr (hvisits.untouched a (List.nodup_cons.1 hvisits.nodup_evaluated).1)
    · exact .inl (get?_entered ha text hba)

/-! ## Sweeps -/

/-- A sweep does nothing to a cell that is not listed. -/
theorem get?_recalculate (h : g.Lists cells) (ha : a ∉ cells.map Prod.fst) (tokens : Tokens) :
    (g.recalculate tokens cells).1.get? a = g.get? a := by
  induction cells generalizing g tokens with
  | nil => rfl
  | cons p rest ih =>
    obtain ⟨b, formula⟩ := p
    rw [List.map_cons, List.mem_cons, not_or] at ha
    obtain ⟨c, hc, -⟩ := h (b, formula) List.mem_cons_self
    rw [recalculate_cons, ih (h.store tokens).2 ha.2, get?_set (contains_of_get? hc), if_neg ha.1]

/-- The deltas of a sweep are the difference that it makes. -/
theorem difference_recalculate (h : g.Lists cells) (hnodup : (cells.map Prod.fst).Nodup)
    (tokens : Tokens) :
    g.Difference (g.recalculate tokens cells).1 (g.recalculate tokens cells).2 := by
  induction cells generalizing g tokens with
  | nil => exact .refl g
  | cons p rest ih =>
    obtain ⟨a, formula⟩ := p
    obtain ⟨hfresh, hnodup⟩ := List.nodup_cons.1 hnodup
    obtain ⟨c, hc, -⟩ := h (a, formula) List.mem_cons_self
    have hrest := (h.store tokens).2
    rw [recalculate_cons, deltas_recalculate_cons, hc]
    refine (Difference.set hc _).append (ih hrest hnodup _) fun b => ?_
    by_cases hba : b = a
    · rw [hba]
      exact .inr (get?_recalculate hrest hfresh _)
    · exact .inl ((get?_set (contains_of_get? hc)).trans (if_neg hba))

/-! ## Formulas and literals -/

/-- A cell still has the same formula, and if it has none, nothing of it has changed. -/
def Keeps (g k : Grid) (a : Address) : Prop :=
  (k.get? a).map Cell.formula = (g.get? a).map Cell.formula ∧
    ∀ c, g.get? a = some c → c.formula = none → k.get? a = some c

theorem Keeps.of_get?_eq (h : k.get? a = g.get? a) : g.Keeps k a :=
  ⟨congrArg _ h, fun _ hc _ => h.trans hc⟩

theorem Keeps.trans (h : g.Keeps k a) (h' : k.Keeps m a) : g.Keeps m a :=
  ⟨h'.1.trans h.1, fun c hc hf => h'.2 c (h.2 c hc hf) hf⟩

/-- Storing results keeps all formulas and literals. -/
theorem Calculated.keeps (h : g.Calculated k) (a : Address) : g.Keeps k a := by
  induction h with
  | refl => exact .of_get?_eq rfl
  | @store k b c formula result _ hc hf ih =>
    refine ih.trans ?_
    have hget := get?_set (b := a) (c := Cell.ofResult formula result) (contains_of_get? hc)
    by_cases hab : a = b
    · rw [if_pos hab] at hget
      refine ⟨?_, fun d hd hdf => ?_⟩
      · rw [hget, hab, hc, Option.map_some, Option.map_some, Cell.formula_ofResult, hf]
      · rw [hab, hc] at hd
        rw [← Option.some.inj hd, hf] at hdf
        cases hdf
    · rw [if_neg hab] at hget
      exact .of_get?_eq hget

end Grid

/-! ## Calls -/

namespace Sheet

/-- **Propagation ends and is bounded.** The steps by which a sheet carries a change on are finitely
many. The formulas that they evaluate stand in the grid, each in a cell of its own and none in the
committed one, so there are fewer of them than cells. They are as many as the commit reports. -/
theorem propagation_bounded (s : Sheet) (address text : String) :
    match s.grid.locate address with
    | .error _ => s.call (.commit address text) = s
    | .ok a =>
      let evaluations := s.grid.dependentEvaluations s.depthLimit a text
      (∃ met, ((s.grid.entered a text).walkFrom a (s.grid.enteredTokens a text)).Runs
        (s.grid.entered a text).dependencyGraph s.depthLimit met
        ((s.grid.entered a text).propagate a s.depthLimit (s.grid.enteredTokens a text)) ∧
        (s.grid.carriesOn a text = true → evaluations = met.map Prod.fst)) ∧
      (a :: evaluations.map Evaluation.address).Nodup ∧
      (∀ e ∈ evaluations, ∃ c, s.grid.get? e.address = some c ∧ c.formula = some e.formula) ∧
      (s.commit a text).2.propagated = evaluations.length ∧
      evaluations.length < s.grid.size ∧
      (s.grid.size ≤ s.depthLimit → (s.commit a text).2.stops = []) := by
  cases hlocate : s.grid.locate address with
  | error _ => exact call_of_error hlocate text
  | ok a =>
    have ha := (contains_of_locate hlocate).2
    obtain ⟨hnodup, hinside⟩ := Grid.nodup_touched ha s.depthLimit text
    have hlength := Grid.length_le_size hnodup hinside
    rw [Grid.touched, List.length_cons, List.length_map] at hlength
    have hruns := Walk.runs_run (s.grid.entered a text).dependencyGraph s.depthLimit
      ((s.grid.entered a text).walkFrom a (s.grid.enteredTokens a text))
    rw [← Grid.propagate_eq] at hruns
    dsimp only
    rw [result_commit]
    refine ⟨⟨_, hruns, fun hcarries => ?_⟩, hnodup,
      fun e he => Grid.formula_of_mem_dependentEvaluations ha he,
      Grid.propagated_commit s.grid s.depthLimit a text, hlength,
      fun hlimit => Grid.stops_commit ha hlimit text⟩
    rw [Walk.map_fst_meetings, Grid.dependentEvaluations_of_carriesOn hcarries]

/-- The deltas that a call reports. A name of no cell is refused. -/
def deltas (s : Sheet) : Call → List Delta
  | .commit address text =>
    match s.grid.locate address with
    | .error _ => []
    | .ok a => (s.commit a text).2.deltas
  | .reconcile => s.reconcile.2.deltas

/-- The cell that a call commits a text to. -/
def committed? (s : Sheet) : Call → Option Address
  | .commit address _ => (s.grid.locate address).toOption
  | .reconcile => none

theorem difference_of_call (s : Sheet) (c : Call) :
    s.grid.Difference (s.call c).grid (s.deltas c) := by
  cases c with
  | commit address text =>
    unfold deltas
    cases hlocate : s.grid.locate address with
    | error missing =>
      simp only [hlocate, call_of_error hlocate]
      exact .refl s.grid
    | ok a =>
      simp only [hlocate, call_of_ok hlocate, grid_commit, result_commit]
      exact Grid.difference_commit (contains_of_locate hlocate).2 s.depthLimit text
  | reconcile =>
    unfold call deltas
    dsimp only
    cases hchanged : s.hasChanged with
    | true =>
      rw [reconcile_of_hasChanged hchanged]
      exact Grid.difference_recalculate (Grid.lists_formulaCells s.grid)
        (Grid.nodup_formulaCells s.grid) []
    | false =>
      rw [reconcile_of_not_hasChanged hchanged]
      exact .refl s.grid

theorem keeps_call (s : Sheet) (c : Call) {a : Address} (ha : s.committed? c ≠ some a) :
    s.grid.Keeps (s.call c).grid a := by
  cases c with
  | commit address text =>
    cases hlocate : s.grid.locate address with
    | error missing =>
      rw [call_of_error hlocate]
      exact .of_get?_eq rfl
    | ok b =>
      have hab : a ≠ b := by
        rintro rfl
        rw [committed?, hlocate] at ha
        exact ha rfl
      rw [call_of_ok hlocate, grid_commit]
      exact (Grid.Keeps.of_get?_eq (Grid.get?_entered (contains_of_locate hlocate).2 text hab)).trans
        ((Grid.calculated_commit s.grid s.depthLimit b text).keeps a)
  | reconcile =>
    unfold call
    dsimp only
    cases hchanged : s.hasChanged with
    | true =>
      rw [reconcile_of_hasChanged hchanged]
      exact (Grid.calculated_recalculate (Grid.lists_formulaCells s.grid)).keeps a
    | false =>
      rw [reconcile_of_not_hasChanged hchanged]
      exact .of_get?_eq rfl

/-- **The deltas of a call are the difference that it makes**, whatever the grid holds. A cell that is
not committed keeps its formula, and if it has none, nothing of it changes. -/
theorem difference_call (s : Sheet) (c : Call) :
    s.grid.Difference (s.call c).grid (s.deltas c) ∧
      ∀ a, s.committed? c ≠ some a → s.grid.Keeps (s.call c).grid a :=
  ⟨difference_of_call s c, fun _ => keeps_call s c⟩

end Sheet

end Spreadsheet
