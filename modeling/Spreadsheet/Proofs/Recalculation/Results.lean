import Spreadsheet.Proofs.Evaluation.Inputs
import Spreadsheet.Proofs.Grid.Listing

/-!
# Stored results

Propagation and sweeps do one thing to a grid, over and over: they store the result of a formula in
the cell of that formula (`Calculated`). All that is said here follows from this alone.

**Marks (`Marked`).** The error state of a cell is the one that its value stands for, because
neither a number nor a literal is spelled like a sentinel. So value and formula tell all about a
cell, and values alone tell which cells are in error (`SameValues.hasErrors`).

**Quiet commits (`sameValues_commit`).** A commit without deltas leaves all values as they were.
-/

namespace Spreadsheet

open Text

/-! ## Marked cells -/

/-- The error state is the one that the value stands for. -/
def Cell.Marked (c : Cell) : Prop := c.error = ErrorState.ofSentinel c.value

/-- Sentinels start with a number sign. -/
theorem ofSentinel_eq_none {text : String} (h : text.toList.head? ≠ some '#') :
    ErrorState.ofSentinel text = .none := by
  unfold ErrorState.ofSentinel
  rw [if_neg, if_neg]
  · rintro rfl
    exact h rfl
  · rintro rfl
    exact h rfl

theorem ofSentinel_sentinel (state : ErrorState) :
    ErrorState.ofSentinel state.sentinel = state := by
  cases state <;> decide

theorem head?_displayChars (x : Float) : (Number.displayChars x).head? ≠ some '#' := by
  have hmagnitude : ∀ (n : Nat) (rest : List Char),
      (decimalChars n ++ rest).head? ≠ some '#' := by
    intro n rest hhead
    have hmem : '#' ∈ Nat.toDigits 10 n := by
      unfold decimalChars at hhead
      cases hdigits : Nat.toDigits 10 n with
      | nil => exact absurd hdigits Nat.toDigits_ne_nil
      | cons c cs =>
        rw [hdigits] at hhead
        obtain rfl := Option.some.inj hhead
        exact List.mem_cons_self
    exact absurd (Nat.isDigit_of_mem_toDigits (by decide) (by decide) hmem) (by decide)
  unfold Number.displayChars
  split
  · unfold Number.Hundredths.chars
    dsimp only
    split
    · simp
    · exact hmagnitude _ _
  · decide
  · split <;> decide

theorem ofSentinel_display (x : Float) : ErrorState.ofSentinel (Number.display x) = .none := by
  refine ofSentinel_eq_none ?_
  rw [Number.display, String.toList_ofList]
  exact head?_displayChars x

/-- A literal starts with a dollar sign or a digit. -/
theorem head?_of_isComplete {text : String} {c : Char} (h : Literal.isComplete text = true)
    (hc : text.toList.head? = some c) : c = '$' ∨ isDigit c = true := by
  unfold Literal.isComplete at h
  cases hl : text.toList with
  | nil =>
    rw [hl] at hc
    cases hc
  | cons d rest =>
    rw [hl] at h hc
    obtain rfl := Option.some.inj hc
    refine Decidable.byContradiction fun hstart => ?_
    obtain ⟨hdollar, hdigit⟩ := not_or.1 hstart
    have hnumeral : Literal.isCompleteChars (d :: rest) = false := by
      simp [Literal.isCompleteChars, Literal.dropOptional, Literal.isNumeralChars, hdollar, hdigit]
    rw [hnumeral] at h
    cases h

namespace Cell

variable {c d : Cell}

theorem marked_empty : Cell.empty.Marked := rfl

theorem marked_ofError (state : ErrorState) (formula : Option String) :
    (Cell.ofError state formula).Marked :=
  (ofSentinel_sentinel state).symm

theorem marked_ofLiteral {text : String} (h : Literal.isComplete text = true) :
    (Cell.ofLiteral text).Marked := by
  refine (ofSentinel_eq_none fun hc => ?_).symm
  exact absurd (head?_of_isComplete h hc) (by decide)

theorem marked_ofResult (formula : String) (result : Except FormulaError Float) :
    (Cell.ofResult formula result).Marked := by
  cases result with
  | ok x => exact (ofSentinel_display x).symm
  | error e => exact marked_ofError e.state (some formula)

/-- A marked cell is in error if its value stands for an error. -/
theorem Marked.isError (h : c.Marked) : c.isError = (ErrorState.ofSentinel c.value != .none) := by
  unfold Cell.isError
  rw [h]
  by_cases herror : c.value = ErrorState.error.sentinel
  · rw [herror]
    decide
  · by_cases hcircular : c.value = ErrorState.circular.sentinel
    · rw [hcircular]
      decide
    · rw [beq_false_of_ne herror, beq_false_of_ne hcircular, Bool.or_false, Bool.or_false]

/-- Marked cells with the same content are the same. -/
theorem Marked.eq (hc : c.Marked) (hd : d.Marked) (h : c.content = d.content) : c = d := by
  obtain ⟨hvalue, hformula⟩ := Prod.mk.inj h
  have herror : c.error = d.error := by rw [hc, hd, hvalue]
  cases c
  cases d
  rw [Cell.mk.injEq]
  exact ⟨hvalue, hformula, herror⟩

theorem formula_ofResult (formula : String) (result : Except FormulaError Float) :
    (Cell.ofResult formula result).formula = some formula := by
  cases result <;> rfl

end Cell

namespace Grid

variable {g k : Grid} {a : Address} {c : Cell}

/-! ## Marked grids -/

/-- All cells are marked. -/
def Marked (g : Grid) : Prop := ∀ a c, g.get? a = some c → c.Marked

theorem Marked.set (h : g.Marked) (hc : c.Marked) (a : Address) : (g.set a c).Marked := by
  intro b d hd
  rcases eq_or_get?_of_set hd with rfl | hd
  · exact hc
  · exact h b d hd

/-- Marked grids with the same snapshot hold the same cells. -/
theorem Marked.get?_eq (hg : g.Marked) (hk : k.Marked) (h : g.snapshot = k.snapshot)
    (a : Address) : g.get? a = k.get? a := by
  have hcontent := content_of_snapshot_eq h a
  cases hc : g.get? a with
  | none =>
    rw [hc] at hcontent
    exact (Option.map_eq_none_iff.1 hcontent.symm).symm
  | some c =>
    rw [hc] at hcontent
    obtain ⟨d, hd, heq⟩ := Option.map_eq_some_iff.1 hcontent.symm
    rw [hd, (hg a c hc).eq (hk a d hd) heq.symm]

/-! ## Grids with the same values -/

/-- Two grids have the same size and show the same values. -/
structure SameValues (g k : Grid) : Prop where
  size : g.SameSize k
  value : ∀ a, g.valueAt a = k.valueAt a

namespace SameValues

theorem refl (g : Grid) : g.SameValues g := ⟨.refl g, fun _ => rfl⟩

theorem trans {m : Grid} (h : g.SameValues k) (h' : k.SameValues m) : g.SameValues m :=
  ⟨h.size.trans h'.size, fun a => (h.value a).trans (h'.value a)⟩

theorem set {d : Cell} (hc : g.get? a = some c) (h : d.value = c.value) :
    (g.set a d).SameValues g := by
  refine ⟨sameSize_set g a d, fun b => ?_⟩
  rw [valueAt_set g a b d (contains_of_get? hc)]
  by_cases hb : b = a
  · rw [if_pos hb, hb, valueAt, hc, Option.getD_some, h]
  · rw [if_neg hb]

theorem csv (h : g.SameValues k) : g.csv = k.csv := csv_congr h.size h.value

theorem get? (h : g.SameValues k) (hc : g.get? a = some c) :
    ∃ d, k.get? a = some d ∧ d.value = c.value := by
  have hcontains : k.Contains a := by
    have hg := contains_of_get? hc
    exact ⟨h.size.1 ▸ hg.1, h.size.2 ▸ hg.2⟩
  obtain ⟨d, hd⟩ := get?_of_contains hcontains
  refine ⟨d, hd, ?_⟩
  have hvalue := h.value a
  rw [valueAt, valueAt, hc, hd] at hvalue
  exact hvalue.symm

theorem symm (h : g.SameValues k) : k.SameValues g :=
  ⟨⟨h.size.1.symm, h.size.2.symm⟩, fun a => (h.value a).symm⟩

/-- Marked grids with the same values have errors together. -/
theorem hasErrors (h : g.SameValues k) (hg : g.Marked) (hk : k.Marked) :
    g.hasErrors = k.hasErrors := by
  have himp : ∀ {g k : Grid}, g.SameValues k → g.Marked → k.Marked → g.hasErrors = true →
      k.hasErrors = true := by
    intro g k h hg hk herrors
    obtain ⟨a, c, hc, herror⟩ := hasErrors_iff.1 herrors
    obtain ⟨d, hd, hvalue⟩ := h.get? hc
    refine hasErrors_iff.2 ⟨a, d, hd, ?_⟩
    rw [(hg a c hc).isError] at herror
    rw [(hk a d hd).isError, hvalue, herror]
  exact Bool.eq_iff_iff.2 ⟨himp h hg hk, himp h.symm hk hg⟩

end SameValues

/-! ## Storing results -/

/-- Results were stored in the cells of their formulas, and nothing else was done. -/
inductive Calculated (g : Grid) : Grid → Prop
  | refl : g.Calculated g
  | store {k : Grid} {a : Address} {c : Cell} {formula : String}
      (result : Except FormulaError Float) :
      g.Calculated k → k.get? a = some c → c.formula = some formula →
      g.Calculated (k.set a (Cell.ofResult formula result))

namespace Calculated

theorem trans {m : Grid} (h : g.Calculated k) (h' : k.Calculated m) : g.Calculated m := by
  induction h' with
  | refl => exact h
  | store result _ hc hf ih => exact .store result ih hc hf

theorem marked (h : g.Calculated k) (hg : g.Marked) : k.Marked := by
  induction h with
  | refl => exact hg
  | store result _ _ _ ih => exact ih.set (Cell.marked_ofResult _ result) _

theorem sameSize (h : g.Calculated k) : k.SameSize g := by
  induction h with
  | refl => exact .refl g
  | store _ _ _ _ ih => exact (sameSize_set _ _ _).trans ih

theorem sameInputs (h : g.Calculated k) : k.SameInputs g := by
  induction h with
  | refl => exact .refl g
  | store result _ hc hf ih =>
    refine (SameInputs.set hc ?_).trans ih
    rw [Cell.input_of_formula hf, Cell.input_of_formula (Cell.formula_ofResult _ result)]

/-- Nothing is stored in a cell without a formula. -/
theorem get?_literal (h : g.Calculated k) (hc : k.get? a = some c) (hf : c.formula = none) :
    g.get? a = some c := by
  induction h with
  | refl => exact hc
  | @store k b d formula result _ hd _ ih =>
    rw [get?_set (contains_of_get? hd)] at hc
    by_cases hab : a = b
    · rw [if_pos hab] at hc
      rw [← Option.some.inj hc, Cell.formula_ofResult] at hf
      cases hf
    · rw [if_neg hab] at hc
      exact ih hc

end Calculated

end Grid

theorem value_of_between_eq_nil {a : Address} {before after : Cell}
    (h : Delta.between a before after = []) : after.value = before.value := by
  by_cases heq : after.value = before.value
  · exact heq
  · rw [Delta.between, if_neg heq] at h
    cases h

theorem Grid.calculate_cell (g : Grid) (a : Address) (formula : String) (tokens : Tokens) :
    (g.calculate a formula tokens).2.1 =
      Cell.ofResult formula (g.calculate a formula tokens).1 := by
  unfold calculate
  generalize g.evaluateFormula formula (.cell a) tokens = evaluated
  rfl

/-! ## Propagation -/

namespace Walk

variable {graph : DependencyGraph Address Reference} {limit : Int} {w t : Walk}

theorem run_some (h : w.step graph limit = some t) : w.run graph limit = t.run graph limit := by
  rw [run]
  split
  · rename_i u hu
    rw [h] at hu
    cases hu
    rfl
  · rename_i hu
    rw [h] at hu
    cases hu

theorem run_none (h : w.step graph limit = none) : w.run graph limit = w := by
  rw [run]
  split
  · rename_i u hu
    rw [h] at hu
    cases hu
  · rfl

/-- A visit stores the result of the dependent's formula, if it has one. -/
theorem calculated_visit (a : Address) (rest : List Address) (above : List (List Address)) :
    w.grid.Calculated (w.visit graph limit a rest above).grid := by
  simp only [visit]
  split
  · exact .refl
  · rename_i before hbefore
    split
    · exact .refl
    · rename_i formula hformula
      have hcell := Grid.calculate_cell w.grid a formula w.tokens
      generalize w.grid.calculate a formula w.tokens = calculated at hcell ⊢
      obtain ⟨result, cell, known⟩ := calculated
      dsimp only at hcell ⊢
      have hstored : w.grid.Calculated (w.grid.set a cell) :=
        hcell ▸ .store result .refl hbefore hformula
      split
      · exact hstored
      · split
        · exact hstored
        · split <;> exact hstored

theorem calculated_step (h : w.step graph limit = some t) : w.grid.Calculated t.grid := by
  unfold step at h
  split at h
  · cases h
  · cases h
    exact .refl
  · split at h
    · cases h
      exact .refl
    · cases h
      exact calculated_visit _ _ _

theorem calculated_run (graph : DependencyGraph Address Reference) (limit : Int) (w : Walk) :
    w.grid.Calculated (w.run graph limit).grid := by
  induction w using Walk.run.induct graph limit with
  | case1 w t hstep ih =>
    rw [run_some hstep]
    exact (calculated_step hstep).trans ih
  | case2 w hstep =>
    rw [run_none hstep]
    exact .refl

end Walk

namespace Grid

variable {g : Grid}

theorem calculated_propagate (g : Grid) (a : Address) (limit : Int) (tokens : Tokens) :
    g.Calculated (g.propagate a limit tokens).grid := by
  unfold propagate
  exact Walk.calculated_run g.dependencyGraph limit ⟨g, tokens, [a], _, [], 0, []⟩

/-! ## Commits -/

/-- The cells that a text can make: one that shows the result of a formula, an empty one, one that
holds a literal, or one in error. -/
inductive Enters (text : String) : Cell → Prop
  | formula (result : Except FormulaError Float) : Formula.isFormula text = true →
      Enters text (.ofResult text result)
  | empty : Formula.isFormula text = false → text = "" → Enters text .empty
  | literal : Formula.isFormula text = false → text ≠ "" → Literal.isComplete text = true →
      Enters text (.ofLiteral text)
  | invalid : Formula.isFormula text = false → text ≠ "" → Literal.isComplete text = false →
      Enters text (.ofError .error none)

theorem enters_enter (g : Grid) (a : Address) (text : String) : Enters text (g.enter a text).1 := by
  unfold enter
  cases hformula : Formula.isFormula text with
  | true =>
    rw [if_pos rfl]
    have hcell := g.calculate_cell a text []
    generalize g.calculate a text [] = calculated at hcell ⊢
    obtain ⟨result, cell, known⟩ := calculated
    dsimp only at hcell
    rw [hcell]
    cases result with
    | ok x => exact .formula (.ok x) hformula
    | error e => exact .formula (.error e) hformula
  | false =>
    rw [if_neg Bool.false_ne_true]
    by_cases hempty : text = ""
    · rw [if_pos hempty]
      exact .empty hformula hempty
    · rw [if_neg hempty]
      cases hcomplete : Literal.isComplete text with
      | true => exact .literal hformula hempty hcomplete
      | false => exact .invalid hformula hempty hcomplete

/-- What is entered is a marked cell. -/
theorem marked_enter (g : Grid) (a : Address) (text : String) : (g.enter a text).1.Marked := by
  have henters := g.enters_enter a text
  generalize (g.enter a text).1 = cell at henters ⊢
  cases henters with
  | formula result => exact Cell.marked_ofResult text result
  | empty => exact Cell.marked_empty
  | literal _ _ hcomplete => exact Cell.marked_ofLiteral hcomplete
  | invalid => exact Cell.marked_ofError .error none

/-- **All that a commit does.** It enters a cell, and carries the change on if there is one that is no
error. -/
theorem commit_cases (g : Grid) (limit : Int) (a : Address) (text : String) :
    let new := g.enter a (strip text)
    let delta := Delta.between a ((g.get? a).getD Cell.empty) new.1
    let walk := (g.set a new.1).propagate a limit new.2.2
    ((delta.isEmpty || new.1.isError) = true ∧ g.commit limit a text =
        (g.set a new.1, ⟨a, new.1.value, new.1.error, delta, new.2.1, 0, []⟩)) ∨
      (delta.isEmpty || new.1.isError) = false ∧ g.commit limit a text =
        (walk.grid, ⟨a, new.1.value, new.1.error, delta ++ walk.deltas, new.2.1, walk.count,
          walk.stops⟩) := by
  unfold commit
  generalize g.enter a (strip text) = new
  obtain ⟨cell, message, tokens⟩ := new
  dsimp only
  cases (Delta.between a ((g.get? a).getD Cell.empty) cell).isEmpty || cell.isError with
  | true => exact .inl ⟨rfl, if_pos rfl⟩
  | false => exact .inr ⟨rfl, if_neg (by decide)⟩

/-- A commit enters a cell and stores results in others. -/
theorem calculated_commit (g : Grid) (limit : Int) (a : Address) (text : String) :
    (g.set a (g.enter a (strip text)).1).Calculated (g.commit limit a text).1 := by
  rcases g.commit_cases limit a text with ⟨-, heq⟩ | ⟨-, heq⟩ <;> rw [heq]
  · exact .refl
  · exact calculated_propagate _ a limit _

theorem marked_commit (h : g.Marked) (limit : Int) (a : Address) (text : String) :
    (g.commit limit a text).1.Marked :=
  (calculated_commit g limit a text).marked (h.set (marked_enter g a (strip text)) a)

/-- What evaluation reads from a cell in which a stripped text was entered. -/
def inputOfText (text : String) : String ⊕ String :=
  if Formula.isFormula text then .inl text
  else if text = "" then .inr ""
  else if Literal.isComplete text then .inr text
  else .inr ErrorState.error.sentinel

/-- Evaluation reads the same from a cell in which a text was entered, whatever the grid. -/
theorem input_enter (g : Grid) (a : Address) (text : String) :
    (g.enter a text).1.input = inputOfText text := by
  have henters := g.enters_enter a text
  generalize (g.enter a text).1 = cell at henters ⊢
  unfold inputOfText
  cases henters with
  | formula result hformula =>
    rw [if_pos hformula]
    exact Cell.input_of_formula (Cell.formula_ofResult text result)
  | empty hformula hempty =>
    rw [hformula, if_neg Bool.false_ne_true, if_pos hempty]
    rfl
  | literal hformula hne hcomplete =>
    rw [hformula, if_neg Bool.false_ne_true, if_neg hne, if_pos hcomplete]
    rfl
  | invalid hformula hne hincomplete =>
    rw [hformula, hincomplete, if_neg Bool.false_ne_true, if_neg hne, if_neg Bool.false_ne_true]
    rfl

/-- A commit enters its text, and all other inputs stay. -/
theorem input_commit (ha : g.Contains a) (limit : Int) (text : String) (b : Address) :
    ((g.commit limit a text).1.get? b).map Cell.input =
      if b = a then some (inputOfText (strip text)) else (g.get? b).map Cell.input := by
  rw [(calculated_commit g limit a text).sameInputs b, get?_set ha]
  by_cases hb : b = a
  · rw [if_pos hb, if_pos hb, Option.map_some, input_enter]
  · rw [if_neg hb, if_neg hb]

/-- **Quiet commits.** A commit without deltas leaves all values as they were. -/
theorem sameValues_commit {limit : Int} {a : Address} {text : String}
    (h : (g.commit limit a text).2.changed = false) :
    (g.commit limit a text).1.SameValues g := by
  have hnone : (g.commit limit a text).2.deltas = [] := by
    rwa [CommitResult.changed, Bool.not_eq_false', List.isEmpty_iff] at h
  have hquiet : Delta.between a ((g.get? a).getD Cell.empty) (g.enter a (strip text)).1 = [] ∧
      (g.commit limit a text).1 = g.set a (g.enter a (strip text)).1 := by
    rcases g.commit_cases limit a text with ⟨-, heq⟩ | ⟨hgoes, heq⟩ <;> rw [heq] at hnone ⊢
    · exact ⟨hnone, rfl⟩
    · rw [(List.append_eq_nil_iff.1 hnone).1] at hgoes
      cases hgoes
  obtain ⟨hdelta, hgrid⟩ := hquiet
  rw [hgrid]
  by_cases ha : g.Contains a
  · obtain ⟨c, hc⟩ := get?_of_contains ha
    rw [hc, Option.getD_some] at hdelta
    exact .set hc (value_of_between_eq_nil hdelta)
  · rw [Grid.set, dif_neg ha]
    exact .refl g

end Grid

end Spreadsheet
