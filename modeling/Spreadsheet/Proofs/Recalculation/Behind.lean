import Spreadsheet.Proofs.Recalculation.Missed

/-!
# Cells that commits leave behind

Between two sweeps a cell may show a number that its formula does not evaluate to any more. A commit
is carried on from every change that can be seen, but not from a cell that ends in error, and not
from one that has recovered unseen (`Hides`). The cells that lead to such a cell are behind, until
they are evaluated themselves (`stillBehind`).

**Theorem (`currentUnless_commit`).** No other cells get behind: each cell shows its result or is in
error, unless it was behind before the commit or is behind now. Clearing an error leaves no cell
behind but the cleared one (`CurrentUnless.clear`).
-/

namespace Spreadsheet

open Text

namespace Grid

variable {g k : Grid} {evaluated cleared : List Address} {a u : Address} {c d : Cell}
  {path : List Reference} {t : String} {behind : Address → Prop}

/-- A cell was evaluated, and nothing is carried on from it, though it may be read differently than
before: it has recovered, or it is in error. -/
def Hides (g k : Grid) (evaluated : List Address) (u : Address) : Prop :=
  g.Recovers k evaluated u ∨ u ∈ evaluated ∧ ∃ d, k.get? u = some d ∧ d.isError = true

/-- The cells that are behind after others were evaluated: those that were not evaluated themselves
and were behind already, or lead to a cell that nothing is carried on from. -/
def stillBehind (g k : Grid) (evaluated : List Address) (behind : Address → Prop) (a : Address) :
    Prop :=
  a ∉ evaluated ∧ (behind a ∨ ∃ u, g.Hides k evaluated u ∧ k.Reaches (.cell a) (.cell u))

/-- If nothing was evaluated, the same cells are behind. -/
theorem stillBehind_nil : g.stillBehind k [] behind a ↔ behind a := by
  refine ⟨fun h => h.2.resolve_right ?_, fun h => ⟨List.not_mem_nil, .inl h⟩⟩
  rintro ⟨u, ⟨hu, -⟩ | ⟨hu, -⟩, -⟩ <;> cases hu

/-- Every cell shows the result of its formula or is in error, if it is not among the cleared ones
and not behind. -/
def CurrentUnless (g : Grid) (behind : Address → Prop) (cleared : List Address) : Prop :=
  ∀ a c, g.get? a = some c → a ∉ cleared → c.Shows g a ∨ c.isError = true ∨ behind a

theorem Current.currentUnless (h : g.Current) (behind : Address → Prop) (cleared : List Address) :
    g.CurrentUnless behind cleared :=
  fun a c hc _ => .inl (h a c hc)

theorem CurrentUnless.mono {behind' : Address → Prop} {cleared' : List Address}
    (h : g.CurrentUnless behind cleared) (hbehind : ∀ a, behind a → behind' a)
    (hcleared : cleared ⊆ cleared') : g.CurrentUnless behind' cleared' :=
  fun a c hc ha => (h a c hc fun hmem => ha (hcleared hmem)).imp_right
    (Or.imp_right (hbehind a))

/-! ## Evaluations -/

namespace Carried

section

variable (h : g.Carried k evaluated) (hmarked : g.Marked)
  (hproper : ∀ u ∈ evaluated, ∀ d, k.get? u = some d → d.formula = none → Literal.Proper d.value)

include h hmarked hproper

/-- An evaluated cell that shows no change resolves as it did before, unless it hides a change. -/
theorem resolve_open (hu : u ∈ evaluated) (hsame : ¬ g.Changes k u)
    (hopen : ¬ g.Hides k evaluated u) (ht : g.resolve path (.cell u) = .ok t) :
    k.resolve [] (.cell u) = .ok t := by
  obtain ⟨-, c, hfind, -⟩ := resolve_ok_cases ht
  have hc : g.get? u = some c := hfind
  obtain ⟨d, hd⟩ := get?_of_contains ((contains_congr h.size u).1 (contains_of_get? hc))
  have hclean : d.isError = false := Bool.eq_false_iff.2 fun herror =>
    hopen (.inr ⟨hu, d, hd, herror⟩)
  have hvalue : d.value = c.value := by
    by_contra hne
    exact hsame ⟨c, d, hc, hd, hne, hclean⟩
  have hshows : c.Shows g u := by
    by_contra hno
    exact hopen (.inl ⟨hu, c, d, hc, hd, hvalue, hno⟩)
  have hstands := (stands_of_resolve (hmarked u c hc) hc hshows ht).1
  exact resolve_of_stands (hproper u hu d hd) hd (h.shows u hu d hd) (hvalue ▸ hstands)

/-- A formula that was not evaluated, and leads to no cell that hides a change, has the number that it
had before. -/
theorem evaluate_open {formula : String} {x : Float} (hu : u ∉ evaluated)
    (hopen : ∀ v, k.Reaches (.cell u) (.cell v) → ¬ g.Hides k evaluated v)
    (hc : g.get? u = some c) (hf : c.formula = some formula)
    (hx : (g.evaluateFormula formula (.cell u) []).1 = .ok x) :
    (k.evaluateFormula formula (.cell u) []).1 = .ok x := by
  have halong : k.Along g evaluated (g.ReadsOn k evaluated u) :=
    { agree := h.untouched
      reads := by
        rintro v s hway hv ⟨c, formula, hc, hf, hs⟩
        exact h.readsOn_reads hv hway ⟨c, formula, (h.untouched v hv).trans hc, hf, hs⟩
      ends := fun v path t hway hv =>
        h.resolve_open hmarked hproper hv (hway.2 v rfl hv) (hopen v hway.1) }
  exact halong.evaluate hu (readsOn_self hu) hc hf hx

/-- **No other cells get behind.** -/
theorem currentUnless (hg : g.CurrentUnless behind cleared) :
    k.CurrentUnless (g.stillBehind k evaluated behind) cleared := by
  intro a c hc hcleared
  by_cases ha : a ∈ evaluated
  · exact .inl (h.shows a ha c hc)
  have hbefore : g.get? a = some c := (h.untouched a ha).symm.trans hc
  rcases hg a c hbefore hcleared with hshows | herror | hbehind
  · by_cases hhides : ∃ u, g.Hides k evaluated u ∧ k.Reaches (.cell a) (.cell u)
    · exact .inr (.inr ⟨ha, .inr hhides⟩)
    · have hopen : ∀ u, k.Reaches (.cell a) (.cell u) → ¬ g.Hides k evaluated u :=
        fun u hreach hu => hhides ⟨u, hu, hreach⟩
      by_cases hclean : c.isError = true
      · exact .inr (.inl hclean)
      · refine .inl fun formula hf => ?_
        have hcell := hshows formula hf
        cases hresult : (g.evaluateFormula formula (.cell a) []).1 with
        | error e =>
          rw [hcell, hresult] at hclean
          exact absurd (Cell.isError_ofResult formula e) hclean
        | ok x =>
          rw [h.evaluate_open hmarked hproper ha hopen hbefore hf hresult]
          rw [hresult] at hcell
          exact hcell
  · exact .inr (.inl herror)
  · exact .inr (.inr ⟨ha, .inl hbehind⟩)

end

end Carried

/-! ## Commits -/

/-- What a commit evaluates holds a formula, a literal or the mark of an error. -/
theorem proper_touched {limit : Int} {text : String} (ha : g.Contains a) :
    ∀ u ∈ g.touched limit a text, ∀ d, (g.commit limit a text).1.get? u = some d →
      d.formula = none → Literal.Proper d.value := by
  intro u hu d hd hf
  obtain rfl := eq_enter_of_literal ha hu hd hf
  exact proper_enter g a (strip text) hf

/-- **No commit leaves other cells behind**, if no limit stops it. -/
theorem currentUnless_commit {limit : Int} (ha : g.Contains a) (hlimit : g.size ≤ limit)
    (hmarked : g.Marked) (hg : g.CurrentUnless behind cleared) (text : String) :
    (g.commit limit a text).1.CurrentUnless
      (g.stillBehind (g.commit limit a text).1 (g.touched limit a text) behind) cleared :=
  (carried_commit ha hlimit text).currentUnless hmarked (proper_touched ha) hg

/-! ## Errors that are cleared -/

/-- Clearing an error leaves no cell behind but the cleared one. -/
theorem CurrentUnless.clear (h : g.CurrentUnless behind cleared) (hmarked : g.Marked)
    (hc : g.get? a = some c) (herror : c.isError = true) (hd : d.formula = c.formula) :
    (g.set a d).CurrentUnless behind (a :: cleared) := by
  intro b e he hcleared
  have hba : b ≠ a := fun heq => hcleared (heq ▸ List.mem_cons_self)
  rw [get?_set (contains_of_get? hc), if_neg hba] at he
  rcases h b e he fun hmem => hcleared (List.mem_cons_of_mem _ hmem) with hshows | hrest
  · exact (shows_clear hmarked hc herror hd he hshows).imp_right .inl
  · exact .inr hrest

end Grid

end Spreadsheet
