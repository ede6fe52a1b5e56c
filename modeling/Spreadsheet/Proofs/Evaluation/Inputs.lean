import Spreadsheet.Proofs.Evaluation.Search

/-!
# What a formula reads from a cell

A formula reads formulas and literals. It never reads what a cell with a formula shows, and nothing
of a cell that it does not lead to.

**Theorem (`evaluateFormula_congr`).** Grids that agree on the formulas and literals of all cells
that a formula leads to give it the same result. So storing a result in the cell of its formula
changes no other result (`SameInputs.evaluateFormula`).

**Theorem (`error_of_reaches`).** A formula that leads to a literal which is no number has none.
-/

namespace Spreadsheet

/-- What evaluation reads from a cell: its formula or, without one, its literal. -/
def Cell.input (c : Cell) : String ⊕ String :=
  match c.formula with
  | some formula => .inl formula
  | none => .inr c.value

namespace Cell

variable {c d : Cell}

theorem input_of_formula {formula : String} (h : c.formula = some formula) :
    c.input = .inl formula := by
  unfold input
  rw [h]

theorem input_of_literal (h : c.formula = none) : c.input = .inr c.value := by
  unfold input
  rw [h]

theorem formula_of_input {formula : String} (h : c.input = .inl formula) :
    c.formula = some formula := by
  cases hc : c.formula with
  | some f =>
    rw [input_of_formula hc] at h
    rw [Sum.inl.inj h]
  | none =>
    rw [input_of_literal hc] at h
    cases h

theorem literal_of_input {value : String} (h : c.input = .inr value) :
    c.formula = none ∧ c.value = value := by
  cases hc : c.formula with
  | some f =>
    rw [input_of_formula hc] at h
    cases h
  | none =>
    rw [input_of_literal hc] at h
    exact ⟨rfl, Sum.inr.inj h⟩

end Cell

namespace Grid

variable {g k : Grid} {a b : Address} {r s : Reference} {c d : Cell} {formula : String}

/-! ## Grids that agree at a reference -/

/-- Two grids hold the same formula or literal at a reference, or both hold nothing there. -/
def AgreeAt (g k : Grid) (r : Reference) : Prop :=
  (g.find? r).map Cell.input = (k.find? r).map Cell.input

namespace AgreeAt

theorem symm (h : g.AgreeAt k r) : k.AgreeAt g r := Eq.symm h

theorem find?_none (h : g.AgreeAt k r) (hr : g.find? r = none) : k.find? r = none := by
  rw [AgreeAt, hr] at h
  exact Option.map_eq_none_iff.1 h.symm

theorem find?_some (h : g.AgreeAt k r) (hc : g.find? r = some c) :
    ∃ d, k.find? r = some d ∧ d.input = c.input := by
  rw [AgreeAt, hc] at h
  exact Option.map_eq_some_iff.1 h.symm

theorem reads (h : g.AgreeAt k r) (hs : g.Reads r s) : k.Reads r s := by
  obtain ⟨c, formula, hc, hf, hmem⟩ := hs
  obtain ⟨d, hd, hinput⟩ := h.find?_some hc
  rw [Cell.input_of_formula hf] at hinput
  exact ⟨d, formula, hd, Cell.formula_of_input hinput, hmem⟩

/-- Only the replaced cell can differ. -/
theorem set (g : Grid) (d : Cell) (h : r ≠ .cell a) : (g.set a d).AgreeAt g r := by
  cases r with
  | cell b =>
    have hba : b ≠ a := fun hab => h (congrArg _ hab)
    exact congrArg _ (get?_set_of_ne hba)
  | unknown text => rfl

end AgreeAt

/-! ## What a formula leads to -/

/-- Grids that agree on all that a reference leads to resolve it alike. The induction follows the
recursion on the first grid. -/
theorem resolve_congr {path : List Reference} (h : ∀ s, g.Reaches r s → g.AgreeAt k s) :
    g.resolve path r = k.resolve path r := by
  induction path, r using Grid.resolve.induct (g := g) with
  | case1 path r hr => rw [resolve_of_mem hr, resolve_of_mem hr]
  | case2 path r hr hc =>
    rw [resolve_of_find?_none hr hc, resolve_of_find?_none hr ((h r .refl).find?_none hc)]
  | case3 path r hr c hc formula hf ih =>
    obtain ⟨d, hd, hinput⟩ := (h r .refl).find?_some hc
    rw [Cell.input_of_formula hf] at hinput
    have hsame : ∀ s ∈ Formula.references (Formula.body formula),
        g.resolve (path ++ [r]) s = k.resolve (path ++ [r]) s :=
      fun s hs => ih s fun q hq => h q (.head ⟨c, formula, hc, hf, hs⟩ hq)
    rw [resolve_of_formula hr hc hf, resolve_of_formula hr hd (Cell.formula_of_input hinput),
      valueBy_congr hsame]
  | case4 path r hr c hc hf hl =>
    obtain ⟨d, hd, hinput⟩ := (h r .refl).find?_some hc
    rw [Cell.input_of_literal hf] at hinput
    obtain ⟨hdf, hvalue⟩ := Cell.literal_of_input hinput
    rw [resolve_of_literal hr hc hf, resolve_of_literal hr hd hdf, hvalue]
  | case5 path r hr c hc hf u hl =>
    obtain ⟨d, hd, hinput⟩ := (h r .refl).find?_some hc
    rw [Cell.input_of_literal hf] at hinput
    obtain ⟨hdf, hvalue⟩ := Cell.literal_of_input hinput
    rw [resolve_of_literal hr hc hf, resolve_of_literal hr hd hdf, hvalue]

/-- **A result depends on nothing but what the formula leads to.** -/
theorem evaluateFormula_congr (hc : g.get? a = some c) (hf : c.formula = some formula)
    (h : ∀ s, g.Reaches (.cell a) s → g.AgreeAt k s) :
    (g.evaluateFormula formula (.cell a) []).1 = (k.evaluateFormula formula (.cell a) []).1 := by
  rw [Grid.evaluateFormula, Grid.evaluateFormula, evaluate_nil, evaluate_nil, plainValue,
    plainValue]
  exact valueBy_congr fun r hr =>
    resolve_congr fun s hs => h s (.head ⟨c, formula, hc, hf, hr⟩ hs)

/-- Grids that agree on all that a reference leads to in one of them have it lead to the same. -/
theorem reaches_congr (h : ∀ s, g.Reaches r s → g.AgreeAt k s) : g.Reaches r s ↔ k.Reaches r s := by
  constructor
  · intro hs
    induction hs with
    | refl => exact .refl
    | tail hreach hread ih => exact ih.tail ((h _ hreach).reads hread)
  · intro hs
    induction hs with
    | refl => exact .refl
    | tail _ hread ih => exact ih.tail ((h _ ih).symm.reads hread)

/-- A formula that leads to a literal which is no number has no result. -/
theorem error_of_reaches (hc : g.get? a = some c) (hf : c.formula = some formula)
    (hreach : g.Reaches (.cell a) (.cell b)) (hd : g.get? b = some d) (hliteral : d.formula = none)
    (htoken : Literal.token? d.value = none) :
    ∃ e, (g.evaluateFormula formula (.cell a) []).1 = .error e := by
  cases hresult : (g.evaluateFormula formula (.cell a) []).1 with
  | error e => exact ⟨e, rfl⟩
  | ok x =>
    rw [Grid.evaluateFormula, evaluate_nil, plainValue] at hresult
    rcases Relation.ReflTransGen.cases_head hreach with
      heq | ⟨s, ⟨c', formula', hc', hf', hs⟩, hrest⟩
    · cases heq
      rw [hc] at hd
      rw [Option.some.inj hd, hliteral] at hf
      cases hf
    · obtain rfl : c = c' := Option.some.inj (hc.symm.trans hc')
      obtain rfl : formula = formula' := Option.some.inj (hf.symm.trans hf')
      obtain ⟨t, ht⟩ := exists_of_valueBy hresult s hs
      obtain ⟨path, u, hu⟩ := exists_resolve_of_reaches ht hrest
      obtain ⟨-, d', hd', hcase⟩ := resolve_ok_cases hu
      obtain rfl : d = d' := Option.some.inj (hd.symm.trans hd')
      rcases hcase with ⟨f, y, hformula, -⟩ | ⟨-, hnumber⟩
      · rw [hliteral] at hformula
        cases hformula
      · rw [htoken] at hnumber
        cases hnumber

/-! ## Grids that agree everywhere -/

/-- Two grids agree on all formulas and literals. -/
def SameInputs (g k : Grid) : Prop :=
  ∀ a, (g.get? a).map Cell.input = (k.get? a).map Cell.input

namespace SameInputs

theorem refl (g : Grid) : g.SameInputs g := fun _ => rfl

theorem symm (h : g.SameInputs k) : k.SameInputs g := fun a => (h a).symm

theorem trans {m : Grid} (h : g.SameInputs k) (h' : k.SameInputs m) : g.SameInputs m :=
  fun a => (h a).trans (h' a)

/-- A cell replaced by one with the same input leaves all inputs alone. -/
theorem set {a : Address} {d : Cell} (hc : g.get? a = some c) (h : d.input = c.input) :
    (g.set a d).SameInputs g := by
  intro b
  rw [get?_set (contains_of_get? hc)]
  by_cases hb : b = a
  · rw [if_pos hb, hb, hc, Option.map_some, Option.map_some, h]
  · rw [if_neg hb]

theorem agreeAt (h : g.SameInputs k) (r : Reference) : g.AgreeAt k r := by
  cases r with
  | cell a => exact h a
  | unknown text => rfl

theorem find?_some (h : g.SameInputs k) (hc : g.find? r = some c) :
    ∃ d, k.find? r = some d ∧ d.input = c.input :=
  (h.agreeAt r).find?_some hc

theorem resolve (h : g.SameInputs k) (path : List Reference) (r : Reference) :
    g.resolve path r = k.resolve path r :=
  resolve_congr fun s _ => h.agreeAt s

theorem reaches (h : g.SameInputs k) : g.Reaches r s ↔ k.Reaches r s :=
  reaches_congr fun s _ => h.agreeAt s

/-- **Results depend on formulas and literals alone.** -/
theorem evaluateFormula (h : g.SameInputs k) (formula : String) (origin : Reference) :
    (g.evaluateFormula formula origin []).1 = (k.evaluateFormula formula origin []).1 := by
  rw [Grid.evaluateFormula, Grid.evaluateFormula, evaluate_nil, evaluate_nil, plainValue,
    plainValue, valueBy_congr fun r _ => h.resolve [origin] r]

theorem soundTokens {tokens : Tokens} (h : g.SameInputs k) (ht : SoundTokens g tokens) :
    SoundTokens k tokens := by
  intro r t hr
  obtain ⟨path, hres⟩ := ht r t hr
  exact ⟨path, (h.resolve path r).symm.trans hres⟩

end SameInputs

end Grid

end Spreadsheet
