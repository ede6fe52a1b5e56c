import Spreadsheet.Proofs.Recalculation.Results

/-!
# A sweep makes a sheet current

**Theorem (`current_recalculate`).** After all formula cells were calculated in order, with tokens
that they share, each shows the result that its formula has in the grid without any tokens. The
induction goes over the formula cells: the tokens stay sound and the inputs stay the same, so each
result is the one that the grid had for it from the start.

**Theorem (`Sheet.Sound.reconcile`).** A sheet may leave a sweep out if its grid holds what it held
after the last one. Then its cells are those of a current grid, because value and formula tell all
about a marked cell.
-/

namespace Spreadsheet

/-! ## Current grids -/

/-- The cell, if it has a formula, shows the result that the formula has in a grid. -/
def Cell.Shows (g : Grid) (a : Address) (c : Cell) : Prop :=
  ∀ formula, c.formula = some formula →
    c = Cell.ofResult formula (g.evaluateFormula formula (.cell a) []).1

namespace Grid

variable {g k : Grid} {a : Address} {c : Cell} {tokens : Tokens} {cells : List (Address × String)}

/-- Every formula cell shows the result of its formula. -/
def Current (g : Grid) : Prop := ∀ a c, g.get? a = some c → c.Shows g a

theorem SameInputs.shows (h : g.SameInputs k) (hc : c.Shows g a) : c.Shows k a := by
  intro formula hf
  rw [← h.evaluateFormula]
  exact hc formula hf

theorem SameInputs.get?_formula {formula : String} (h : g.SameInputs k) (hc : g.get? a = some c)
    (hf : c.formula = some formula) : ∃ d, k.get? a = some d ∧ d.formula = some formula := by
  obtain ⟨d, hd, hinput⟩ := h.find?_some (r := .cell a) hc
  rw [Cell.input_of_formula hf] at hinput
  exact ⟨d, hd, Cell.formula_of_input hinput⟩

/-- Grids with the same cells at all addresses are current together. -/
theorem Current.of_get?_eq (hg : g.Current) (h : ∀ a, g.get? a = k.get? a) : k.Current := by
  have hinputs : g.SameInputs k := fun a => congrArg _ (h a)
  intro a c hc
  rw [← h a] at hc
  exact hinputs.shows (hg a c hc)

/-- **Inputs tell all about a current grid.** Marked grids that are current and hold the same formulas
and literals are the same. -/
theorem Current.get?_eq (hg : g.Current) (hk : k.Current) (hgm : g.Marked) (hkm : k.Marked)
    (h : g.SameInputs k) (a : Address) : g.get? a = k.get? a := by
  cases hc : g.get? a with
  | none =>
    have hinput := h a
    rw [hc] at hinput
    exact (Option.map_eq_none_iff.1 hinput.symm).symm
  | some c =>
    obtain ⟨d, hd, hinput⟩ := (h.agreeAt (.cell a)).find?_some hc
    have hget : k.get? a = some d := hd
    rw [hget]
    cases hf : c.formula with
    | some formula =>
      rw [Cell.input_of_formula hf] at hinput
      rw [hg a c hc formula hf, hk a d hget formula (Cell.formula_of_input hinput),
        h.evaluateFormula]
    | none =>
      rw [Cell.input_of_literal hf] at hinput
      obtain ⟨hdf, hvalue⟩ := Cell.literal_of_input hinput
      have hcontent : c.content = d.content := by simp [Cell.content, hf, hdf, hvalue]
      rw [(hgm a c hc).eq (hkm a d hget) hcontent]

/-! ## Sweeps -/

/-- The cells to be calculated hold the formulas that are listed with them. -/
def Lists (g : Grid) (cells : List (Address × String)) : Prop :=
  ∀ p ∈ cells, ∃ c, g.get? p.1 = some c ∧ c.formula = some p.2

theorem lists_formulaCells (g : Grid) : g.Lists g.formulaCells := fun _ => mem_formulaCells.1

theorem recalculate_cons (g : Grid) (tokens : Tokens) (a : Address) (formula : String)
    (rest : List (Address × String)) :
    (g.recalculate tokens ((a, formula) :: rest)).1 =
      ((g.set a (g.calculate a formula tokens).2.1).recalculate
        (g.calculate a formula tokens).2.2 rest).1 := by
  rw [recalculate]

theorem deltas_recalculate_cons (g : Grid) (tokens : Tokens) (a : Address) (formula : String)
    (rest : List (Address × String)) :
    (g.recalculate tokens ((a, formula) :: rest)).2 =
      Delta.between a ((g.get? a).getD Cell.empty) (g.calculate a formula tokens).2.1 ++
        ((g.set a (g.calculate a formula tokens).2.1).recalculate
          (g.calculate a formula tokens).2.2 rest).2 := by
  rw [recalculate]

/-- A sweep goes on as it began: with stored results, and with the formulas listed. -/
theorem Lists.store {formula : String} {rest : List (Address × String)}
    (h : g.Lists ((a, formula) :: rest)) (tokens : Tokens) :
    g.Calculated (g.set a (g.calculate a formula tokens).2.1) ∧
      (g.set a (g.calculate a formula tokens).2.1).Lists rest := by
  obtain ⟨c, hc, hf⟩ := h (a, formula) List.mem_cons_self
  have hstored : g.Calculated (g.set a (g.calculate a formula tokens).2.1) := by
    rw [calculate_cell]
    exact .store _ .refl hc hf
  refine ⟨hstored, fun p hp => ?_⟩
  obtain ⟨d, hd, hdf⟩ := h p (List.mem_cons_of_mem _ hp)
  exact hstored.sameInputs.symm.get?_formula hd hdf

theorem calculated_recalculate (h : g.Lists cells) :
    g.Calculated (g.recalculate tokens cells).1 := by
  induction cells generalizing g tokens with
  | nil => exact .refl
  | cons p rest ih =>
    obtain ⟨hstored, hrest⟩ := h.store tokens
    rw [recalculate_cons]
    exact hstored.trans (ih hrest)

/-- The result that a formula cell is given with sound tokens is the one without tokens. -/
theorem calculate_sound {formula : String} (h : g.SameInputs k) (ht : SoundTokens k tokens)
    (hc : g.get? a = some c) (hf : c.formula = some formula) :
    (g.calculate a formula tokens).2.1 =
        Cell.ofResult formula (k.evaluateFormula formula (.cell a) []).1 ∧
      SoundTokens k (g.calculate a formula tokens).2.2 := by
  have hfind : g.find? (.cell a) = some c := hc
  obtain ⟨hresult, hknown⟩ := evaluateFormula_sound (h.symm.soundTokens ht) hfind hf
  rw [← h.evaluateFormula, ← hresult]
  unfold calculate
  generalize g.evaluateFormula formula (.cell a) tokens = evaluated at hknown
  exact ⟨rfl, h.soundTokens hknown⟩

/-- A cell after a sweep shows its result, or the sweep did not come to it. -/
theorem shows_or_untouched (h : g.SameInputs k) (ht : SoundTokens k tokens) (hl : g.Lists cells)
    (hc : (g.recalculate tokens cells).1.get? a = some c) :
    c.Shows k a ∨ (g.get? a = some c ∧ ∀ formula, (a, formula) ∉ cells) := by
  induction cells generalizing g tokens with
  | nil => exact .inr ⟨hc, fun _ => List.not_mem_nil⟩
  | cons p rest ih =>
    obtain ⟨b, formula⟩ := p
    obtain ⟨d, hd, hf⟩ : ∃ d, g.get? b = some d ∧ d.formula = some formula :=
      hl (b, formula) List.mem_cons_self
    obtain ⟨hstored, hrest⟩ := hl.store tokens
    obtain ⟨hcell, hknown⟩ := calculate_sound h ht hd hf
    rw [recalculate_cons] at hc
    generalize g.calculate b formula tokens = calculated at hstored hrest hcell hknown hc
    rcases ih (hstored.sameInputs.trans h) hknown hrest hc with hshows | ⟨hget, hnot⟩
    · exact .inl hshows
    · rw [get?_set (contains_of_get? hd)] at hget
      by_cases hab : a = b
      · -- The sweep stored the result of this cell just now.
        rw [if_pos hab, hcell] at hget
        obtain rfl := Option.some.inj hget
        refine .inl fun formula' hf' => ?_
        rw [Cell.formula_ofResult] at hf'
        obtain rfl := Option.some.inj hf'
        rw [hab]
      · rw [if_neg hab] at hget
        refine .inr ⟨hget, fun formula' hmem => ?_⟩
        rcases List.mem_cons.1 hmem with heq | hmem
        · exact hab (Prod.mk.inj heq).1
        · exact hnot formula' hmem

/-- After a sweep every cell shows the result that its formula had in the grid before it. -/
theorem shows_recalculate (hc : (g.recalculate [] g.formulaCells).1.get? a = some c) :
    c.Shows g a := by
  rcases shows_or_untouched (.refl g) (.nil g) (lists_formulaCells g) hc with hshows | ⟨hget, hnot⟩
  · exact hshows
  · intro formula hf
    exact absurd (mem_formulaCells.2 ⟨c, hget, hf⟩) (hnot formula)

/-- **A sweep makes a grid current.** -/
theorem current_recalculate (g : Grid) : (g.recalculate [] g.formulaCells).1.Current :=
  fun _ _ hc =>
  (calculated_recalculate (lists_formulaCells g)).sameInputs.symm.shows (shows_recalculate hc)

/-! ## Sweeps that change no value -/

/-- A sweep over a current grid leaves all values as they were. -/
theorem Current.sameValues_recalculate (h : g.Current) :
    (g.recalculate [] g.formulaCells).1.SameValues g := by
  have hstored : g.Calculated (g.recalculate [] g.formulaCells).1 :=
    calculated_recalculate (lists_formulaCells g)
  refine ⟨hstored.sameSize, fun a => ?_⟩
  have hinput := hstored.sameInputs a
  unfold valueAt
  cases hc : (g.recalculate [] g.formulaCells).1.get? a with
  | none =>
    rw [hc] at hinput
    rw [Option.map_eq_none_iff.1 hinput.symm]
  | some c =>
    rw [hc] at hinput
    obtain ⟨d, hd, heq⟩ := Option.map_eq_some_iff.1 hinput.symm
    rw [hd, Option.getD_some, Option.getD_some]
    cases hf : c.formula with
    | some formula =>
      rw [Cell.input_of_formula hf] at heq
      rw [shows_recalculate hc formula hf, h a d hd formula (Cell.formula_of_input heq)]
    | none =>
      rw [Cell.input_of_literal hf] at heq
      exact (Cell.literal_of_input heq).2.symm

/-- A sweep without deltas leaves all values as they were. -/
theorem sameValues_recalculate (hl : g.Lists cells) (h : (g.recalculate tokens cells).2 = []) :
    (g.recalculate tokens cells).1.SameValues g := by
  induction cells generalizing g tokens with
  | nil => exact .refl g
  | cons p rest ih =>
    obtain ⟨a, formula⟩ := p
    obtain ⟨c, hc, -⟩ := hl (a, formula) List.mem_cons_self
    rw [deltas_recalculate_cons, hc, Option.getD_some] at h
    obtain ⟨hdelta, hquiet⟩ := List.append_eq_nil_iff.1 h
    rw [recalculate_cons]
    exact (ih (hl.store tokens).2 hquiet).trans (.set hc (value_of_between_eq_nil hdelta))

end Grid

/-! ## Sheets -/

namespace Sheet

/-- The cells are marked, and what the grid held after the last sweep was current. -/
structure Sound (s : Sheet) : Prop where
  marked : s.grid.Marked
  swept : s.swept = [] ∨ ∃ g : Grid, g.Marked ∧ g.Current ∧ s.swept = g.snapshot

variable {s : Sheet}

theorem sound_ofGrid {g : Grid} (h : g.Marked) (depthLimit : Option Int) :
    (Sheet.ofGrid g depthLimit).Sound :=
  ⟨h, .inl rfl⟩

/-- A grid that has not changed since the last sweep is current. -/
theorem Sound.current (h : s.Sound) (hsame : s.hasChanged = false) : s.grid.Current := by
  have hsnapshot : s.grid.snapshot = s.swept := by simpa [hasChanged] using hsame
  rcases h.swept with hnil | ⟨g, hmarked, hcurrent, hswept⟩
  · exact absurd (hsnapshot.trans hnil) s.grid.snapshot_ne_nil
  · exact hcurrent.of_get?_eq (hmarked.get?_eq h.marked (hswept.symm.trans hsnapshot.symm))

/-- What a sweep does that is not left out. -/
theorem reconcile_of_hasChanged (h : s.hasChanged = true) :
    s.reconcile =
      ({ s with
          grid := (s.grid.recalculate [] s.grid.formulaCells).1
          swept := (s.grid.recalculate [] s.grid.formulaCells).1.snapshot },
        ⟨true, (s.grid.recalculate [] s.grid.formulaCells).2, s.grid.formulaCells.length⟩) := by
  unfold reconcile
  rw [if_pos h]

theorem reconcile_of_not_hasChanged (h : s.hasChanged = false) :
    s.reconcile = (s, { ran := false }) := by
  unfold reconcile
  rw [h]
  rfl

theorem depthLimit_reconcile (s : Sheet) : s.reconcile.1.depthLimit = s.depthLimit := by
  cases hchanged : s.hasChanged with
  | true => rw [reconcile_of_hasChanged hchanged]
  | false => rw [reconcile_of_not_hasChanged hchanged]

/-- **A sweep makes a sheet current**, also if it finds that nothing has changed. -/
theorem Sound.reconcile (h : s.Sound) :
    s.reconcile.1.Sound ∧ s.reconcile.1.grid.Current := by
  cases hchanged : s.hasChanged with
  | true =>
    rw [reconcile_of_hasChanged hchanged]
    have hmarked : (s.grid.recalculate [] s.grid.formulaCells).1.Marked :=
      (Grid.calculated_recalculate (Grid.lists_formulaCells s.grid)).marked h.marked
    have hcurrent := Grid.current_recalculate s.grid
    generalize s.grid.recalculate [] s.grid.formulaCells = swept at hmarked hcurrent ⊢
    exact ⟨⟨hmarked, .inr ⟨swept.1, hmarked, hcurrent, rfl⟩⟩, hcurrent⟩
  | false =>
    rw [reconcile_of_not_hasChanged hchanged]
    exact ⟨h, h.current hchanged⟩

/-- A commit to a sheet is one to its grid. -/
theorem commit_eq (s : Sheet) (a : Address) (text : String) :
    s.commit a text = ({ s with grid := (s.grid.commit s.depthLimit a text).1 },
      (s.grid.commit s.depthLimit a text).2) := by
  unfold Sheet.commit
  generalize s.grid.commit s.depthLimit a text = committed
  rfl

theorem grid_commit (s : Sheet) (a : Address) (text : String) :
    (s.commit a text).1.grid = (s.grid.commit s.depthLimit a text).1 := by
  rw [commit_eq]

theorem result_commit (s : Sheet) (a : Address) (text : String) :
    (s.commit a text).2 = (s.grid.commit s.depthLimit a text).2 := by
  rw [commit_eq]

theorem Sound.commit (h : s.Sound) (a : Address) (text : String) :
    (s.commit a text).1.Sound := by
  rw [commit_eq]
  exact ⟨Grid.marked_commit h.marked s.depthLimit a text, h.swept⟩

/-- A commit without deltas leaves all values as they were. -/
theorem sameValues_commit {a : Address} {text : String}
    (h : (s.commit a text).2.changed = false) : (s.commit a text).1.grid.SameValues s.grid := by
  rw [commit_eq] at h ⊢
  exact Grid.sameValues_commit h

/-- A sweep without deltas leaves all values as they were. -/
theorem sameValues_reconcile (h : s.reconcile.2.changed = false) :
    s.reconcile.1.grid.SameValues s.grid := by
  cases hchanged : s.hasChanged with
  | true =>
    rw [reconcile_of_hasChanged hchanged] at h ⊢
    refine Grid.sameValues_recalculate (Grid.lists_formulaCells s.grid) ?_
    simpa [SweepResult.changed] using h
  | false =>
    rw [reconcile_of_not_hasChanged hchanged]
    exact .refl s.grid

/-- A sweep over a current sheet leaves all values as they were. -/
theorem sameValues_reconcile_of_current (h : s.grid.Current) :
    s.reconcile.1.grid.SameValues s.grid := by
  cases hchanged : s.hasChanged with
  | true =>
    rw [reconcile_of_hasChanged hchanged]
    exact h.sameValues_recalculate
  | false =>
    rw [reconcile_of_not_hasChanged hchanged]
    exact .refl s.grid

end Sheet

end Spreadsheet
