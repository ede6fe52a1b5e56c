import Spreadsheet.Proofs.Recalculation.Shown
import Spreadsheet.Proofs.Recalculation.Spreading

/-!
# Cells that a commit misses

A commit is not carried on from a cell that shows the same as before. That does no harm if the cell
showed its result before: a formula that reads it reads the same as before. But a cell may have been
left behind, showing a number that its formula did not evaluate to any more. When its formula
evaluates to this number again, the cell recovers and nobody can see it (`Recovers`).

**Theorem (`Carried.numbersShown`).** So the formulas that evaluate to a number show it after a
commit, if they did before, but for those that lead to a cell that has recovered unseen.
-/

namespace Spreadsheet

open Text

namespace Grid

variable {g k : Grid} {evaluated : List Address} {u : Address} {r : Reference}
  {path : List Reference} {t : String}

/-- A cell was evaluated and shows the same as before, but did not show its result before. -/
def Recovers (g k : Grid) (evaluated : List Address) (u : Address) : Prop :=
  u ∈ evaluated ∧ ∃ c d, g.get? u = some c ∧ k.get? u = some d ∧ d.value = c.value ∧ ¬ c.Shows g u

/-! ## Reading as in another grid -/

/-- A body whose references resolve as in another grid has the same value there, for a cell whose
formula it is. -/
theorem valueBy_along {body : String} {x : Float}
    (hread : ∀ s ∈ Formula.references body, g.Reads r s)
    (hbefore : ∀ s ∈ Formula.references body, ∀ t, k.resolve path s = .ok t →
      g.resolve [] s = .ok t)
    (hx : Formula.valueBy (k.resolve path) body = .ok x) :
    Formula.valueBy (g.resolve [r]) body = .ok x := by
  rw [← hx]
  refine valueBy_congr fun s hs => ?_
  obtain ⟨t, ht⟩ := exists_of_valueBy hx s hs
  have ht' := hbefore s hs t ht
  rw [ht]
  refine resolve_of_avoids ht' fun q hq hmem => ?_
  rw [List.mem_singleton.1 hmem] at hq
  exact acyclic_of_resolve ht' (.tail' hq (hread s hs))

/-- Two grids agree on the cells that are read on a way, but for some at which it ends. Where these
resolve in the second grid, they resolve in the first one. -/
structure Along (g k : Grid) (evaluated : List Address) (p : Reference → Prop) : Prop where
  agree : ∀ u, u ∉ evaluated → g.get? u = k.get? u
  reads : ∀ u s, p (.cell u) → u ∉ evaluated → k.Reads (.cell u) s → p s
  ends : ∀ u path t, p (.cell u) → u ∈ evaluated → k.resolve path (.cell u) = .ok t →
    g.resolve [] (.cell u) = .ok t

namespace Along

variable {p : Reference → Prop}

/-- **Where a reference on the way resolves, it resolves in the other grid**, and to the same. -/
theorem resolve (h : g.Along k evaluated p) (hr : p r) (ht : k.resolve path r = .ok t) :
    g.resolve [] r = .ok t := by
  induction path, r using Grid.resolve.induct (g := k) generalizing t with
  | case1 path r hmem => simp [resolve_of_mem hmem] at ht
  | case2 path r hmem hc => simp [resolve_of_find?_none hmem hc] at ht
  | case3 path r hmem c hc formula hf ih =>
    cases r with
    | unknown text => cases hc
    | cell u =>
      by_cases hu : u ∈ evaluated
      · exact h.ends u path t hr hu ht
      · have hget : g.find? (.cell u) = some c := (h.agree u hu).trans hc
        rw [resolve_of_formula hmem hc hf] at ht
        rw [resolve_of_formula List.not_mem_nil hget hf, List.nil_append]
        cases hv : Formula.valueBy (k.resolve (path ++ [.cell u])) (Formula.body formula) with
        | error e => simp [hv, Except.map] at ht
        | ok x =>
          have hvalue := valueBy_along (g := g) (r := .cell u)
            (fun s hs => ⟨c, formula, hget, hf, hs⟩)
            (fun s hs t hst => ih s (h.reads u s hr hu ⟨c, formula, hc, hf, hs⟩) hst) hv
          rw [hvalue, ← ht, hv]
  | case4 path r hmem c hc hf hl => simp [resolve_of_literal hmem hc hf, hl] at ht
  | case5 path r hmem c hc hf v hl =>
    cases r with
    | unknown text => cases hc
    | cell u =>
      by_cases hu : u ∈ evaluated
      · exact h.ends u path t hr hu ht
      · have hget : g.find? (.cell u) = some c := (h.agree u hu).trans hc
        rw [resolve_of_literal hmem hc hf, hl] at ht
        rw [resolve_of_literal List.not_mem_nil hget hf, hl, ht]

/-- The formula of a cell on which both grids agree has the same number. -/
theorem evaluate {c : Cell} {formula : String} {x : Float} (h : g.Along k evaluated p)
    (hu : u ∉ evaluated) (hr : p (.cell u)) (hc : k.get? u = some c)
    (hf : c.formula = some formula) (hx : (k.evaluateFormula formula (.cell u) []).1 = .ok x) :
    (g.evaluateFormula formula (.cell u) []).1 = .ok x := by
  rw [evaluateFormula, evaluate_nil, plainValue] at hx ⊢
  exact valueBy_along (fun s hs => ⟨c, formula, (h.agree u hu).trans hc, hf, hs⟩)
    (fun s hs t hst => h.resolve (h.reads u s hr hu ⟨c, formula, hc, hf, hs⟩) hst) hx

end Along

/-- What a cell leads to, as long as nothing that was evaluated shows a change. -/
def ReadsOn (g k : Grid) (evaluated : List Address) (a : Address) (s : Reference) : Prop :=
  k.Reaches (.cell a) s ∧ ∀ v, s = .cell v → v ∈ evaluated → ¬ g.Changes k v

theorem readsOn_self (hu : u ∉ evaluated) : g.ReadsOn k evaluated u (.cell u) :=
  ⟨.refl, fun _ hv hmem => absurd (Reference.cell.inj hv ▸ hmem) hu⟩

/-- A change that can be seen is carried on, so no cell that was not evaluated reads one. -/
theorem Carried.readsOn_reads (h : g.Carried k evaluated) {a v : Address} {s : Reference}
    (hv : v ∉ evaluated) (hway : g.ReadsOn k evaluated a (.cell v)) (hread : k.Reads (.cell v) s) :
    g.ReadsOn k evaluated a s := by
  refine ⟨hway.1.tail hread, ?_⟩
  rintro w rfl hw hchange
  exact hv (h.carried w hw hchange v hread)

/-! ## What was read before -/

namespace Carried

section

variable (h : g.Carried k evaluated)
  (hmarked : ∀ u ∈ evaluated, ∀ c, k.get? u = some c → c.Marked) (hbefore : g.Proper)

include h hmarked hbefore

/-- An evaluated cell that shows no change resolved before as it does now, unless it recovered. -/
theorem resolve_evaluated (hu : u ∈ evaluated) (hsame : ¬ g.Changes k u)
    (hquiet : ¬ g.Recovers k evaluated u) (ht : k.resolve path (.cell u) = .ok t) :
    g.resolve [] (.cell u) = .ok t := by
  obtain ⟨-, d, hfind, -⟩ := resolve_ok_cases ht
  have hd : k.get? u = some d := hfind
  obtain ⟨c, hc⟩ := get?_of_contains ((contains_congr h.size u).2 (contains_of_get? hd))
  obtain ⟨hstands, hclean⟩ := stands_of_resolve (hmarked u hu d hd) hd (h.shows u hu d hd) ht
  have hvalue : d.value = c.value := by
    by_contra hne
    exact hsame ⟨c, d, hc, hd, hne, hclean⟩
  have hshows : c.Shows g u := by
    by_contra hno
    exact hquiet ⟨hu, c, d, hc, hd, hvalue, hno⟩
  exact resolve_of_stands (hbefore u c hc) hc hshows (hvalue ▸ hstands)

/-- A formula that was not evaluated, and leads to no recovered cell, had its number before. -/
theorem evaluate_before {c : Cell} {formula : String} {x : Float} (hu : u ∉ evaluated)
    (hquiet : ∀ v, k.Reaches (.cell u) (.cell v) → ¬ g.Recovers k evaluated v)
    (hc : k.get? u = some c) (hf : c.formula = some formula)
    (hx : (k.evaluateFormula formula (.cell u) []).1 = .ok x) :
    (g.evaluateFormula formula (.cell u) []).1 = .ok x := by
  have halong : g.Along k evaluated (g.ReadsOn k evaluated u) :=
    { agree := fun v hv => (h.untouched v hv).symm
      reads := fun v s hway hv => h.readsOn_reads hv hway
      ends := fun v path t hway hv =>
        h.resolve_evaluated hmarked hbefore hv (hway.2 v rfl hv) (hquiet v hway.1) }
  exact halong.evaluate hu (readsOn_self hu) hc hf hx

end

end Carried

/-! ## Numbers that are shown -/

/-- Every formula that evaluates to a number shows it and is in no error, but for missed cells. -/
def NumbersShown (g : Grid) (missed : Address → Prop) : Prop :=
  ∀ a c formula x, g.get? a = some c → c.formula = some formula →
    (g.evaluateFormula formula (.cell a) []).1 = .ok x →
    c = ⟨Number.display x, some formula, .none⟩ ∨ missed a

/-- The cells that are missed after others were evaluated: those that were not evaluated themselves
and were missed already, or lead to a cell that has recovered. -/
def stillMissed (g k : Grid) (evaluated : List Address) (missed : Address → Prop) (a : Address) :
    Prop :=
  a ∉ evaluated ∧
    (missed a ∨ ∃ u, g.Recovers k evaluated u ∧ k.Reaches (.cell a) (.cell u))

/-- **No other cells are missed.** -/
theorem Carried.numbersShown {missed : Address → Prop} (h : g.Carried k evaluated)
    (hmarked : ∀ u ∈ evaluated, ∀ c, k.get? u = some c → c.Marked) (hbefore : g.Proper)
    (hg : g.NumbersShown missed) :
    k.NumbersShown (g.stillMissed k evaluated missed) := by
  intro a c formula x hc hf hx
  by_cases ha : a ∈ evaluated
  · refine .inl ?_
    rw [h.shows a ha c hc formula hf, hx]
    rfl
  · by_cases hrecovers : ∃ u, g.Recovers k evaluated u ∧ k.Reaches (.cell a) (.cell u)
    · exact .inr ⟨ha, .inr hrecovers⟩
    · have hquiet : ∀ u, k.Reaches (.cell a) (.cell u) → ¬ g.Recovers k evaluated u :=
        fun u hreach hu => hrecovers ⟨u, hu, hreach⟩
      have hx' := h.evaluate_before hmarked hbefore ha hquiet hc hf hx
      rcases hg a c formula x ((h.untouched a ha).symm.trans hc) hf hx' with hshown | hmissed
      · exact .inl hshown
      · exact .inr ⟨ha, .inl hmissed⟩

/-! ## Proper grids -/

theorem Calculated.proper (h : g.Calculated k) (hg : g.Proper) : k.Proper := by
  induction h with
  | refl => exact hg
  | @store k a c formula result _ hc hf ih =>
    intro b d hd hdf
    rw [get?_set (contains_of_get? hc)] at hd
    by_cases hba : b = a
    · rw [if_pos hba] at hd
      rw [← Option.some.inj hd, Cell.formula_ofResult] at hdf
      cases hdf
    · rw [if_neg hba] at hd
      exact ih b d hd hdf

/-- What is entered without a formula is nothing, a literal or the mark of an error. -/
theorem proper_enter (g : Grid) (a : Address) (text : String)
    (h : (g.enter a text).1.formula = none) : Literal.Proper (g.enter a text).1.value := by
  have hinput : inputOfText text = .inr (g.enter a text).1.value :=
    (input_enter g a text).symm.trans (Cell.input_of_literal h)
  unfold inputOfText at hinput
  split at hinput
  · cases hinput
  · split at hinput
    · exact .inl (Sum.inr.inj hinput).symm
    · split at hinput
      · rename_i hcomplete
        rw [← Sum.inr.inj hinput]
        exact .inr (.inl hcomplete)
      · exact .inr (.inr (Sum.inr.inj hinput).symm)

theorem proper_commit (hg : g.Proper) (limit : Int) (a : Address) (text : String) :
    (g.commit limit a text).1.Proper := by
  refine (calculated_commit g limit a text).proper fun b c hc hf => ?_
  rcases eq_or_get?_of_set hc with rfl | hc
  · exact proper_enter g a (strip text) hf
  · exact hg b c hc hf

/-- **What a commit misses**, if no limit stops it. -/
theorem numbersShown_commit {missed : Address → Prop} {a : Address} {limit : Int}
    (ha : g.Contains a) (hlimit : g.size ≤ limit) (hproper : g.Proper)
    (hg : g.NumbersShown missed) (text : String) :
    (g.commit limit a text).1.NumbersShown
      (g.stillMissed (g.commit limit a text).1 (g.touched limit a text) missed) :=
  (carried_commit ha hlimit text).numbersShown (marked_touched ha hlimit text) hproper hg

end Grid

end Spreadsheet
