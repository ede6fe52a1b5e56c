import Spreadsheet.Proofs.Sheet.Currency

/-!
# One commit on a current grid

After a commit only some of the cells that lead to the committed one are evaluated anew: the change
is not carried on from a cell that shows the same as before, or is in error.

**Theorem (`pruned_commit`).** On a current grid this is enough for numbers, without any sweep: every
formula that evaluates to a number shows it. A formula can only be missed if it leads to a cell that
recovered unseen (`Grid.Recovers`), and on a current grid no cell has anything to recover from. And
no cell changes that does not lead to the committed one.
-/

namespace Spreadsheet

open Text

namespace Grid

variable {g k : Grid} {a b : Address} {r : Reference} {limit : Int} {text : String}

/-! ## What leads to a cell -/

/-- What leads to a cell does so whatever this cell holds. The induction is from the front of the
way, which is over where it first meets the cell. -/
theorem reaches_of_agreeAt (hagree : ∀ s, s ≠ .cell a → g.AgreeAt k s)
    (h : g.Reaches r (.cell a)) : k.Reaches r (.cell a) := by
  induction h using Relation.ReflTransGen.head_induction_on with
  | refl => exact .refl
  | @head r s hread _ ih =>
    by_cases hr : r = .cell a
    · rw [hr]
      exact .refl
    · exact .head ((hagree r hr).reads hread) ih

/-- A commit does not change which cells lead to the committed one. -/
theorem reaches_commit :
    (g.commit limit a text).1.Reaches r (.cell a) ↔ g.Reaches r (.cell a) := by
  rw [(calculated_commit g limit a text).sameInputs.reaches]
  constructor
  · exact reaches_of_agreeAt fun s hs => AgreeAt.set g _ hs
  · exact reaches_of_agreeAt fun s hs => (AgreeAt.set g _ hs).symm

/-! ## Current grids -/

/-- On a current grid no formula that evaluates to a number is missed. -/
theorem Current.numbersShown (h : g.Current) : g.NumbersShown fun _ => False := by
  intro b c formula x hc hf hx
  refine .inl ?_
  rw [h b c hc formula hf, hx]
  rfl

/-- On a current grid no cell recovers. -/
theorem Current.not_recovers {evaluated : List Address} (h : g.Current) :
    ¬ g.Recovers k evaluated b := by
  rintro ⟨-, c, d, hc, -, -, hno⟩
  exact hno (h b c hc)

/-- After a commit on a current grid no formula that evaluates to a number is missed. -/
theorem Current.numbersShown_commit (h : g.Current) (hproper : g.Proper) (ha : g.Contains a)
    (hlimit : g.size ≤ limit) : (g.commit limit a text).1.NumbersShown fun _ => False := by
  intro b c formula x hc hf hx
  refine (Grid.numbersShown_commit ha hlimit hproper h.numbersShown text b c formula x hc hf
    hx).imp_right ?_
  rintro ⟨-, hmissed | ⟨u, hrecovers, -⟩⟩
  · exact hmissed
  · exact h.not_recovers hrecovers

end Grid

/-- The grid after a commit, with a change carried on as far as the grid has cells. -/
def Sheet.committed (g : Grid) (address text : String) : Grid :=
  ((Sheet.ofGrid g none).call (.commit address text)).grid

namespace Sheet

variable {g : Grid} {address : String} {a : Address}

theorem committed_eq (h : g.locate address = .ok a) (text : String) :
    committed g address text = (g.commit g.size a text).1 := by
  rw [committed, call_of_ok h, grid_commit]
  rfl

/-- **Pruned commits are enough on a current grid.** The cells without formulas hold nothing, a
literal or the mark of an error. Then every formula that evaluates to a number after a commit shows
it and is in no error. The commit does not change which cells lead to the committed one, and all
others are as they were. -/
theorem pruned_commit (hcurrent : g.Current) (hproper : g.Proper)
    (hlocate : g.locate address = .ok a) (text : String) :
    (∀ b c formula x, (committed g address text).get? b = some c → c.formula = some formula →
      ((committed g address text).evaluateFormula formula (.cell b) []).1 = .ok x →
      c.value = Number.display x ∧ c.error = .none) ∧
    (∀ b, (committed g address text).Reaches (.cell b) (.cell a) ↔
      g.Reaches (.cell b) (.cell a)) ∧
    ∀ b, ¬ g.Reaches (.cell b) (.cell a) → (committed g address text).get? b = g.get? b := by
  rw [committed_eq hlocate]
  refine ⟨?_, fun b => Grid.reaches_commit, fun b hb => ?_⟩
  · intro b c formula x hc hf hx
    have hshown := hcurrent.numbersShown_commit hproper (contains_of_locate hlocate).2
      (Int.le_refl g.size) b c formula x hc hf hx
    rw [hshown.resolve_right id]
    exact ⟨rfl, rfl⟩
  · exact Grid.get?_commit fun hreach => hb (Grid.reaches_commit.1 hreach)

/-! ## A sum -/

/-- A number is entered into the first of three cells, and 2 is added to it in the second. -/
def summed : List Call := [.commit "A1" "5", .commit "B1" "=A1+2"]

def sumCells : Grid := ((Sheet.ofGrid threeCells none).run summed).grid

theorem current_sumCells : sumCells.Current := by
  have hrun : ((Sheet.ofGrid threeCells none).runWithin 9 summed).any (fun s =>
      s.grid.formulaCells == [(⟨0, 1⟩, "=A1+2")] &&
        s.grid.get? ⟨0, 1⟩ == some ⟨"7", some "=A1+2", .none⟩ &&
        (s.grid.evaluateFormulaWithin 9 "=A1+2" (.cell ⟨0, 1⟩) []).map
          (fun found => Cell.ofResult "=A1+2" found.1) == some ⟨"7", some "=A1+2", .none⟩) =
      true := by
    decide +kernel
  have hall := any_run hrun
  simp only [Bool.and_eq_true, beq_iff_eq] at hall
  obtain ⟨⟨hcells, hget⟩, hresult⟩ := hall
  intro a c hc formula hf
  have hlisted : (a, formula) ∈ sumCells.formulaCells := Grid.mem_formulaCells.2 ⟨c, hc, hf⟩
  rw [sumCells, hcells, List.mem_singleton, Prod.mk.injEq] at hlisted
  obtain ⟨rfl, rfl⟩ := hlisted
  obtain rfl := Option.some.inj (hc.symm.trans hget)
  obtain ⟨found, hfound, hcell⟩ := Option.map_eq_some_iff.1 hresult
  rw [sumCells, Grid.evaluateFormula_of_within hfound, hcell]

theorem proper_sumCells : sumCells.Proper :=
  (run_induction (p := Watched (Sheet.ofGrid threeCells none)) (fun _ _ c hs => hs.call c) summed []
    (watched_ofGrid ofSize_threeCells)).proper

theorem locate_sumCells : sumCells.locate "A1" = .ok ⟨0, 0⟩ := by
  have hrun : ((Sheet.ofGrid threeCells none).runWithin 9 summed).any
      (fun s => s.grid.locate "A1" == .ok ⟨0, 0⟩) = true := by
    decide +kernel
  exact beq_iff_eq.1 (any_run hrun)

/-- A new number is entered into the first cell. -/
theorem pruned_sum :
    sumCells.Current ∧ sumCells.Proper ∧ sumCells.locate "A1" = .ok ⟨0, 0⟩ ∧
      ∀ c formula x, (committed sumCells "A1" "7").get? ⟨0, 1⟩ = some c →
        c.formula = some formula →
        ((committed sumCells "A1" "7").evaluateFormula formula (.cell ⟨0, 1⟩) []).1 = .ok x →
        c.value = Number.display x ∧ c.error = .none :=
  ⟨current_sumCells, proper_sumCells, locate_sumCells,
    (pruned_commit current_sumCells proper_sumCells locate_sumCells "7").1 ⟨0, 1⟩⟩

end Sheet

end Spreadsheet
