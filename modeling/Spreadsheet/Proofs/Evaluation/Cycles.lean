import Mathlib.Data.List.Chain
import Spreadsheet.Proofs.Evaluation.Search

/-!
# Cycles of references

A search keeps the path along which it came, and reports a cycle when it meets a reference on the
path. Tokens that are known already keep it from looking at cells twice, so neither is it clear that
a report names a real cycle, nor that without a report there is none.

**Theorem (`evaluate_circular_or_grounded`).** Both are so. A report lists references that start with
the evaluated cell, each of which the one before refers to, and the last of which has been listed
already. A number is only found where all references lead to cells of the grid, through formulas
without foreign characters, to literals that are numbers, and never back.

As evaluation is plain recursion, a report is followed through the recursion
(`exists_chain_of_resolve`), and numbers rest on what is known of references that resolve
(`grounded_of_resolve`).
-/

namespace Spreadsheet

open Text

/-! ## Where a failure comes from -/

section Failures

variable {f : Reference → Except FormulaError String} {e : FormulaError}

/-- References fail together only if one of them fails. -/
theorem exists_error_of_resolveAll {rs : List Reference} (h : resolveAll f rs = .error e) :
    ∃ r ∈ rs, f r = .error e := by
  induction rs with
  | nil => cases h
  | cons r rs ih =>
    cases hr : f r with
    | error e' =>
      simp only [resolveAll, hr] at h
      cases h
      exact ⟨r, List.mem_cons_self, hr⟩
    | ok t =>
      rw [resolveAll_cons_ok hr] at h
      cases hrs : resolveAll f rs with
      | ok tokens => simp [hrs, Except.map] at h
      | error e' =>
        rw [hrs] at h
        cases h
        obtain ⟨s, hs, hfail⟩ := ih hrs
        exact ⟨s, List.mem_cons_of_mem _ hs, hfail⟩

/-- A body fails by itself, or because one of its references does. -/
theorem error_of_valueBy {body : String} (h : Formula.valueBy f body = .error e) :
    (∃ cause, e = .evaluation cause) ∨ ∃ r ∈ Formula.references body, f r = .error e := by
  unfold Formula.valueBy at h
  split at h
  · exact .inl ⟨_, (Except.error.inj h).symm⟩
  · split at h
    · rename_i e' hall
      cases h
      exact .inr (exists_error_of_resolveAll hall)
    · split at h
      · cases h
      · exact .inl ⟨_, (Except.error.inj h).symm⟩

/-- A body with a value has no foreign characters. -/
theorem hasForeignChar_of_valueBy {body : String} {x : Float}
    (h : Formula.valueBy f body = .ok x) : Formula.hasForeignChar body = false := by
  unfold Formula.valueBy at h
  split at h
  · cases h
  · rename_i hforeign
    exact Bool.eq_false_iff.2 hforeign

end Failures

namespace Grid

variable {g : Grid} {path chain : List Reference} {body : String} {origin r s last : Reference}

/-! ## Reports -/

/-- References that follow one another from a body: it refers to the first of them, and the formula
of each of their cells refers to the next. -/
def Follows (g : Grid) (body : String) : List Reference → Prop
  | [] => True
  | r :: rest => r ∈ Formula.references body ∧ List.IsChain g.Reads (r :: rest)

/-- The report of a cycle continues the path by references that start with the one that was to be
resolved. The induction follows the recursion, which makes the path longer by one cell at a time. -/
theorem exists_chain_of_resolve (h : g.resolve path r = .error (.circular chain last)) :
    ∃ between, chain = path ++ between ∧ last ∈ chain ∧
      ∃ rest, between ++ [last] = r :: rest ∧ List.IsChain g.Reads (r :: rest) := by
  induction path, r using Grid.resolve.induct (g := g) with
  | case1 path r hr =>
    rw [resolve_of_mem hr] at h
    cases h
    exact ⟨[], (List.append_nil _).symm, hr, [], rfl, .singleton _⟩
  | case2 path r hr hc =>
    rw [resolve_of_find?_none hr hc] at h
    cases h
  | case3 path r hr c hc formula hf ih =>
    rw [resolve_of_formula hr hc hf] at h
    cases hv : Formula.valueBy (g.resolve (path ++ [r])) (Formula.body formula) with
    | ok x => simp [hv, Except.map] at h
    | error e =>
      rw [hv] at h
      cases h
      rcases error_of_valueBy hv with ⟨cause, hcause⟩ | ⟨s, hs, hfail⟩
      · cases hcause
      · obtain ⟨between, hchain, hmem, rest, hrest, hreads⟩ := ih s hfail
        refine ⟨r :: between, ?_, hmem, s :: rest, ?_, ?_⟩
        · rw [hchain, List.append_assoc, List.singleton_append]
        · rw [List.cons_append, hrest]
        · exact .cons_cons ⟨c, formula, hc, hf, hs⟩ hreads
  | case4 path r hr c hc hf hl =>
    rw [resolve_of_literal hr hc hf, hl] at h
    cases h
  | case5 path r hr c hc hf t hl =>
    rw [resolve_of_literal hr hc hf, hl] at h
    cases h

/-- A body reports a cycle only along references that follow one another from it. -/
theorem exists_chain_of_plainValue (h : g.plainValue body origin = .error (.circular chain last)) :
    ∃ between, chain = origin :: between ∧ g.Follows body (between ++ [last]) ∧ last ∈ chain := by
  rcases error_of_valueBy h with ⟨cause, hcause⟩ | ⟨r, hr, hfail⟩
  · cases hcause
  · obtain ⟨between, hchain, hmem, rest, hrest, hreads⟩ := exists_chain_of_resolve hfail
    refine ⟨between, hchain, ?_, hmem⟩
    rw [hrest]
    exact ⟨hr, hreads⟩

/-! ## Numbers -/

/-- What a body leads to: its references, and what they lead to by formulas. -/
def LeadsTo (g : Grid) (body : String) (r : Reference) : Prop :=
  ∃ s ∈ Formula.references body, g.Reaches s r

/-- A reference names a cell of the grid, which lies on no cycle, and whose formula has no foreign
characters or, without one, whose literal is a number. -/
structure Grounded (g : Grid) (r : Reference) : Prop where
  acyclic : ¬ Relation.TransGen g.Reads r r
  found : ∃ c, g.find? r = some c ∧
    match c.formula with
    | some formula => Formula.hasForeignChar (Formula.body formula) = false
    | none => ∃ token, Literal.token? c.value = some token

/-- A reference that resolves is grounded. -/
theorem grounded_of_resolve {t : String} (h : g.resolve path r = .ok t) : g.Grounded r := by
  refine ⟨acyclic_of_resolve h, ?_⟩
  obtain ⟨-, c, hc, ⟨formula, x, hf, hv, -⟩ | ⟨hf, htoken⟩⟩ := resolve_ok_cases h
  · refine ⟨c, hc, ?_⟩
    rw [hf]
    exact hasForeignChar_of_valueBy hv
  · refine ⟨c, hc, ?_⟩
    rw [hf]
    exact ⟨t, htoken⟩

/-- A body has a number only if all that it leads to is grounded, and it does not lead back to the
cell that it is evaluated for. -/
theorem grounded_of_plainValue {x : Float} (h : g.plainValue body origin = .ok x) :
    ¬ g.LeadsTo body origin ∧ ∀ r, g.LeadsTo body r → g.Grounded r := by
  constructor
  · rintro ⟨s, hs, hreach⟩
    obtain ⟨t, ht⟩ := exists_of_valueBy h s hs
    exact not_mem_of_resolve ht hreach List.mem_cons_self
  · rintro r ⟨s, hs, hreach⟩
    obtain ⟨t, ht⟩ := exists_of_valueBy h s hs
    obtain ⟨path, u, hu⟩ := exists_resolve_of_reaches ht hreach
    exact grounded_of_resolve hu

/-- **Reports of cycles are true, and numbers are acyclic.** -/
theorem evaluate_circular_or_grounded (g : Grid) (body : String) (origin : Reference) :
    match (g.evaluate body origin []).1 with
    | .error e => e.kind = .circular → ∃ between last,
        e.message = "Circular dependency detected: " ++
          " -> ".intercalate ((origin :: (between ++ [last])).map Reference.name) ∧
        g.Follows body (between ++ [last]) ∧ last ∈ origin :: between
    | .ok _ => ¬ g.LeadsTo body origin ∧ Formula.hasForeignChar body = false ∧
        ∀ r, g.LeadsTo body r → g.Grounded r := by
  rw [evaluate_nil]
  cases hvalue : g.plainValue body origin with
  | ok x =>
    obtain ⟨hback, hgrounded⟩ := grounded_of_plainValue hvalue
    exact ⟨hback, hasForeignChar_of_valueBy hvalue, hgrounded⟩
  | error e =>
    intro hkind
    cases e with
    | evaluation cause => cases hkind
    | unknownReference r => cases hkind
    | circular chain last =>
      obtain ⟨between, rfl, hfollows, hmem⟩ := exists_chain_of_plainValue hvalue
      exact ⟨between, last, rfl, hfollows, hmem⟩

end Grid

end Spreadsheet
