import Spreadsheet.Proofs.Dependency.Registration
import Spreadsheet.Proofs.Recalculation.Sweep

/-!
# A commit changes only the cells that lead to it

A change is carried on from a cell to those that are listed below it in the dependency graph, which
are the cells whose formulas read it (`mem_dependentsOf`). So a commit leaves every cell alone that
does not lead to the committed one (`get?_commit`).

Between two sweeps a sheet may fall behind: a walk over dependents stops where a value stays the
same, and at errors. How far behind it is follows from where it was touched (`CurrentBut`): a
formula that leads to no committed cell still shows its result, or its cell is in error. A commit
keeps this (`CurrentBut.commit`), and so does clearing an error (`CurrentBut.clear`).
-/

namespace Spreadsheet

open Text

/-! ## The dependency graph -/

/-- The dependents of a reference are the cells whose formulas read it. -/
theorem Grid.mem_dependentsOf {g : Grid} {a : Address} {r : Reference} :
    a ∈ g.dependencyGraph.dependentsOf r ↔ g.Reads (.cell a) r := by
  rw [dependencyGraph, DependencyGraph.mem_dependentsOf_ofFormulas]
  constructor
  · rintro ⟨f, hf, hr⟩
    obtain ⟨c, hc, hformula⟩ := mem_formulaCells.1 hf
    exact ⟨c, f, hc, hformula, hr⟩
  · rintro ⟨c, f, hc, hformula, hr⟩
    exact ⟨f, mem_formulaCells.2 ⟨c, hc, hformula⟩, hr⟩

/-! ## Where a walk goes -/

namespace Walk

variable {graph : DependencyGraph Address Reference} {limit : Int} {w t : Walk}
  {p : Address → Prop}

/-- All dependents that are still to be looked at are of a kind. -/
def Within (p : Address → Prop) (w : Walk) : Prop := ∀ l ∈ w.levels, ∀ a ∈ l, p a

/-- A visit changes no other cell, and at most goes on to the dependents of the visited one. -/
theorem visit_frame (graph : DependencyGraph Address Reference) (limit : Int) (w : Walk)
    (a : Address) (rest : List Address) (above : List (List Address)) :
    (∀ b, b ≠ a → (w.visit graph limit a rest above).grid.get? b = w.grid.get? b) ∧
      ((w.visit graph limit a rest above).levels = rest :: above ∨
        (w.visit graph limit a rest above).levels =
          graph.dependentsOf (.cell a) :: rest :: above) := by
  simp only [visit]
  split
  · exact ⟨fun _ _ => rfl, .inl rfl⟩
  · rename_i before hbefore
    split
    · exact ⟨fun _ _ => rfl, .inl rfl⟩
    · rename_i formula hformula
      generalize w.grid.calculate a formula w.tokens = calculated
      obtain ⟨result, cell, known⟩ := calculated
      have hother : ∀ b, b ≠ a → (w.grid.set a cell).get? b = w.grid.get? b := fun b hb =>
        (Grid.get?_set (Grid.contains_of_get? hbefore)).trans (if_neg hb)
      dsimp only
      split
      · exact ⟨hother, .inl rfl⟩
      · split
        · exact ⟨hother, .inl rfl⟩
        · split
          · exact ⟨hother, .inl rfl⟩
          · exact ⟨hother, .inr rfl⟩

/-- A walk among cells of a kind that is closed under dependents stays among them. -/
theorem step_within (hclosed : ∀ a, p a → ∀ x ∈ graph.dependentsOf (.cell a), p x)
    (hw : w.Within p) (h : w.step graph limit = some t) :
    t.Within p ∧ ∀ b, ¬ p b → t.grid.get? b = w.grid.get? b := by
  unfold step at h
  unfold Within at hw
  split at h
  · cases h
  · rename_i above hlevels
    cases h
    rw [hlevels] at hw
    exact ⟨fun l hl => hw l (List.mem_cons_of_mem _ hl), fun _ _ => rfl⟩
  · rename_i a rest above hlevels
    rw [hlevels] at hw
    have ha : p a := hw _ List.mem_cons_self a List.mem_cons_self
    have hrest : ∀ l ∈ rest :: above, ∀ x ∈ l, p x := by
      intro l hl x hx
      rcases List.mem_cons.1 hl with rfl | hl
      · exact hw _ List.mem_cons_self x (List.mem_cons_of_mem _ hx)
      · exact hw l (List.mem_cons_of_mem _ hl) x hx
    split at h
    · cases h
      exact ⟨hrest, fun _ _ => rfl⟩
    · cases h
      obtain ⟨hother, hlevels'⟩ := visit_frame graph limit w a rest above
      refine ⟨?_, fun b hb => hother b fun hba => hb (hba ▸ ha)⟩
      rcases hlevels' with heq | heq
      · rw [Within, heq]
        exact hrest
      · rw [Within, heq]
        intro l hl x hx
        rcases List.mem_cons.1 hl with rfl | hl
        · exact hclosed a ha x hx
        · exact hrest l hl x hx

theorem get?_run (hclosed : ∀ a, p a → ∀ x ∈ graph.dependentsOf (.cell a), p x)
    (hw : w.Within p) {b : Address} (hb : ¬ p b) :
    (w.run graph limit).grid.get? b = w.grid.get? b := by
  induction w using Walk.run.induct graph limit with
  | case1 w t hstep ih =>
    obtain ⟨hwithin, hsame⟩ := step_within hclosed hw hstep
    rw [run_some hstep, ih hwithin, hsame b hb]
  | case2 w hstep => rw [run_none hstep]

end Walk

/-! ## Cells in error -/

/-- A marked cell in error holds no number. -/
theorem Cell.Marked.token?_eq_none {c : Cell} (h : c.Marked) (herror : c.isError = true) :
    Literal.token? c.value = none := by
  rw [h.isError] at herror
  by_cases hvalue : c.value = ErrorState.error.sentinel
  · rw [hvalue]
    decide
  · by_cases hcircular : c.value = ErrorState.circular.sentinel
    · rw [hcircular]
      decide
    · rw [ErrorState.ofSentinel, if_neg hvalue, if_neg hcircular] at herror
      cases herror

theorem Cell.isError_ofResult (formula : String) (e : FormulaError) :
    (Cell.ofResult formula (.error e)).isError = true := by
  cases e <;> rfl

/-! ## Where a commit goes -/

namespace Grid

variable {g k : Grid} {a b : Address} {c d : Cell} {limit : Int} {text : String}

/-- A change is carried on to cells that lead to it only. -/
theorem get?_propagate {tokens : Tokens} (hb : ¬ g.Reaches (.cell b) (.cell a)) :
    (g.propagate a limit tokens).grid.get? b = g.get? b := by
  unfold propagate
  refine Walk.get?_run (p := fun x => g.Reaches (.cell x) (.cell a)) ?_ ?_ hb
  · exact fun y hy x hx => .head (mem_dependentsOf.1 hx) hy
  · intro l hl x hx
    rw [List.mem_singleton.1 hl] at hx
    exact .single (mem_dependentsOf.1 hx)

/-- **A commit changes only the cells that lead to it.** -/
theorem get?_commit (hb : ¬ (g.commit limit a text).1.Reaches (.cell b) (.cell a)) :
    (g.commit limit a text).1.get? b = g.get? b := by
  have hba : b ≠ a := fun heq => hb (heq ▸ .refl)
  have hentered : ¬ (g.set a (g.enter a (strip text)).1).Reaches (.cell b) (.cell a) := fun h =>
    hb ((calculated_commit g limit a text).sameInputs.reaches.2 h)
  have hset : (g.set a (g.enter a (strip text)).1).get? b = g.get? b := get?_set_of_ne hba
  rcases g.commit_cases limit a text with ⟨-, heq⟩ | ⟨-, heq⟩ <;> rw [heq]
  · exact hset
  · exact (get?_propagate hentered).trans hset

/-- After a commit the cells that do not lead to the committed one lead to the same as before. -/
theorem agreeAt_commit {r s : Reference} (h : ¬ (g.commit limit a text).1.Reaches r (.cell a))
    (hs : (g.commit limit a text).1.Reaches r s) : (g.commit limit a text).1.AgreeAt g s := by
  have hsa : s ≠ .cell a := fun heq => h (heq ▸ hs)
  exact ((calculated_commit g limit a text).sameInputs.agreeAt s).trans (AgreeAt.set g _ hsa)

/-! ## Grids that are current in part -/

/-- A cell shows its result on grids that agree on all that it leads to. -/
theorem shows_congr (hc : g.get? a = some c) (h : ∀ s, g.Reaches (.cell a) s → g.AgreeAt k s) :
    c.Shows g a ↔ c.Shows k a := by
  refine forall_congr' fun formula => forall_congr' fun hf => ?_
  rw [evaluateFormula_congr hc hf h]

/-- Every cell shows the result of its formula or is in error, if it is not among the cleared ones
and leads to no committed one. -/
def CurrentBut (g : Grid) (committed cleared : List Address) : Prop :=
  ∀ a c, g.get? a = some c → a ∉ cleared → (∀ u ∈ committed, ¬ g.Reaches (.cell a) (.cell u)) →
    c.Shows g a ∨ c.isError = true

variable {committed cleared : List Address}

theorem Current.currentBut (h : g.Current) (committed cleared : List Address) :
    g.CurrentBut committed cleared :=
  fun a c hc _ _ => .inl (h a c hc)

theorem CurrentBut.mono {committed' cleared' : List Address} (h : g.CurrentBut committed cleared)
    (hcommitted : committed ⊆ committed') (hcleared : cleared ⊆ cleared') :
    g.CurrentBut committed' cleared' :=
  fun a c hc ha hfree => h a c hc (fun hmem => ha (hcleared hmem)) fun u hu =>
    hfree u (hcommitted hu)

/-- A commit is one cell more that others may lead to. -/
theorem CurrentBut.commit (h : g.CurrentBut committed cleared) (limit : Int) (a : Address)
    (text : String) : (g.commit limit a text).1.CurrentBut (a :: committed) cleared := by
  intro b c hc hcleared hfree
  have hb := hfree a List.mem_cons_self
  have hagree := fun s => agreeAt_commit (s := s) hb
  have hbefore : g.get? b = some c := (get?_commit hb).symm.trans hc
  rcases h b c hbefore hcleared fun u hu hreach =>
      hfree u (List.mem_cons_of_mem _ hu) ((reaches_congr hagree).2 hreach) with hshows | herror
  · exact .inl ((shows_congr hc hagree).2 hshows)
  · exact .inr herror

/-- A cell replaced by one with the same formula, or with none again, leads to the same. -/
theorem reaches_set (hc : g.get? a = some c) (hd : d.formula = c.formula) {r s : Reference} :
    (g.set a d).Reaches r s ↔ g.Reaches r s := by
  have hreads : (g.set a d).Reads = g.Reads := by
    funext r s
    refine propext ?_
    unfold Reads
    cases r with
    | unknown text => simp [Grid.find?]
    | cell b =>
      rw [Grid.find?, Grid.find?, get?_set (contains_of_get? hc)]
      by_cases hb : b = a
      · rw [if_pos hb, hb, hc]
        simp [hd]
      · rw [if_neg hb]
  rw [Reaches, hreads, Reaches]

/-- Where an error is cleared, another cell that shows its result still does, or it is in error. -/
theorem shows_clear {e : Cell} (hmarked : g.Marked) (hc : g.get? a = some c)
    (herror : c.isError = true) (hd : d.formula = c.formula) (hb : g.get? b = some e)
    (hshows : e.Shows g b) : e.Shows (g.set a d) b ∨ e.isError = true := by
  cases hformula : c.formula with
  | some formula =>
    have hinput : d.input = c.input := by
      rw [Cell.input_of_formula hformula, Cell.input_of_formula (hd.trans hformula)]
    exact .inl ((SameInputs.set hc hinput).symm.shows hshows)
  | none =>
    by_cases hreach : g.Reaches (.cell b) (.cell a)
    · -- A formula that leads to a literal in error was in error before, and still is.
      cases hf : e.formula with
      | none => exact .inl fun formula hformula' => by rw [hf] at hformula'; cases hformula'
      | some formula =>
        obtain ⟨failure, hfailure⟩ := error_of_reaches hb hf hreach hc hformula
          ((hmarked a c hc).token?_eq_none herror)
        rw [hshows formula hf, hfailure]
        exact .inr (Cell.isError_ofResult formula failure)
    · refine .inl ((shows_congr hb fun s hs => ?_).1 hshows)
      exact (AgreeAt.set g d fun heq : s = .cell a => hreach (heq ▸ hs)).symm

/-- Clearing an error leaves the results of all other cells alone, or their cells are in error. -/
theorem CurrentBut.clear (h : g.CurrentBut committed cleared) (hmarked : g.Marked)
    (hc : g.get? a = some c) (herror : c.isError = true) (hd : d.formula = c.formula) :
    (g.set a d).CurrentBut committed (a :: cleared) := by
  intro b e he hcleared hfree
  have hba : b ≠ a := fun heq => hcleared (heq ▸ List.mem_cons_self)
  rw [get?_set (contains_of_get? hc), if_neg hba] at he
  rcases h b e he (fun hmem => hcleared (List.mem_cons_of_mem _ hmem))
      fun u hu hreach => hfree u hu ((reaches_set hc hd).2 hreach) with hshows | hbad
  · exact shows_clear hmarked hc herror hd he hshows
  · exact .inr hbad

/-- The formula of a cell, if it has one, evaluates to a number, and the cell shows this number. -/
def ShowsNumber (g : Grid) (a : Address) : Prop :=
  ∀ c formula, g.get? a = some c → c.formula = some formula →
    ∃ x, (g.evaluateFormula formula (.cell a) []).1 = .ok x ∧ c.value = Number.display x

/-- Without errors, what shows its result shows a number. -/
theorem showsNumber_of_shows (herrors : g.hasErrors = false)
    (h : ∀ c, g.get? a = some c → c.Shows g a ∨ c.isError = true) : g.ShowsNumber a := by
  intro c formula hc hf
  have hclean : ¬ c.isError = true := fun hbad => by
    rw [hasErrors_iff.2 ⟨a, c, hc, hbad⟩] at herrors
    cases herrors
  have hshows := (h c hc).resolve_right hclean formula hf
  cases hresult : (g.evaluateFormula formula (.cell a) []).1 with
  | ok x =>
    rw [hresult] at hshows
    exact ⟨x, rfl, congrArg Cell.value hshows⟩
  | error e =>
    rw [hresult] at hshows
    rw [hshows] at hclean
    exact absurd (Cell.isError_ofResult formula e) hclean

end Grid

end Spreadsheet
