import Mathlib.Data.List.Induction
import Spreadsheet.Proofs.Address.Canonical
import Spreadsheet.Proofs.Evaluation.Lookups
import Spreadsheet.Proofs.Grid.Listing

/-!
# Both directions of a dependency graph

Registering a formula replaces what its cell reads, but only adds to the lists of dependents. So the
two directions of a graph may disagree, once a cell is registered again.

**Theorem (`inStep_ofFormulas_iff`).** They agree exactly if no formula that reads something was
registered over. In a grid each cell is registered once, and there they agree (`inStep`); the
dependents of a reference are then listed row by row (`pairwise_dependentsOf`).

The graph after a sequence of registrations is determined from the last one backwards: each appends
its cell to some lists (`dependentsOf_register`), so a list of dependents has a member for each
registration that reads the name, whether or not it was the last of its cell
(`dependentsOf_ofFormulas`).
-/

namespace Spreadsheet

namespace DependencyGraph

variable {Node Name : Type} [DecidableEq Node] [DecidableEq Name]
  {graph : DependencyGraph Node Name} {cell x : Node} {formula : String} {names : List Name}
  {r : Name} {reads : String → List Name} {formulas : List (Node × String)}

/-- What a cell reads; nothing, if it was never registered. -/
def dependenciesOf (graph : DependencyGraph Node Name) (cell : Node) : List Name :=
  (Pairs.get? cell graph.dependencies).getD []

/-! ## One registration -/

theorem get?_formulas_register :
    Pairs.get? x (graph.register cell formula names).formulas =
      if cell = x then some formula else Pairs.get? x graph.formulas :=
  Pairs.get?_set cell x formula graph.formulas

theorem get?_dependencies_register :
    Pairs.get? x (graph.register cell formula names).dependencies =
      if cell = x then some names else Pairs.get? x graph.dependencies :=
  Pairs.get?_set cell x names graph.dependencies

/-- **The step lemma.** A registration adds its cell to the dependents of what it reads, and takes
none away. -/
theorem dependentsOf_register :
    (graph.register cell formula names).dependentsOf r =
      graph.dependentsOf r ++ List.replicate (names.count r) cell := by
  have hfold : ∀ dependents : List (Name × List Node),
      (Pairs.get? r (names.foldl (fun acc q =>
        Pairs.update q (fun cells => cells.getD [] ++ [cell]) acc) dependents)).getD [] =
        (Pairs.get? r dependents).getD [] ++ List.replicate (names.count r) cell := by
    induction names with
    | nil => exact fun dependents => (List.append_nil _).symm
    | cons q names ih =>
      intro dependents
      rw [List.foldl_cons, ih, Pairs.get?_update]
      by_cases hq : q = r
      · rw [if_pos hq, hq, List.count_cons_self, List.replicate_succ, Option.getD_some,
          List.append_assoc]
        rfl
      · rw [if_neg hq, List.count_cons_of_ne hq]
  exact hfold graph.dependents

/-! ## All registrations -/

theorem ofFormulas_concat (reads : String → List Name) (formulas : List (Node × String))
    (f : Node × String) : ofFormulas reads (formulas ++ [f]) =
      (ofFormulas reads formulas).register f.1 f.2 (reads f.2) := by
  rw [ofFormulas, List.foldl_append]
  rfl

/-- The formula of a cell is the one registered last. -/
theorem get?_formulas_ofFormulas :
    Pairs.get? x (ofFormulas reads formulas).formulas = Pairs.get? x formulas.reverse := by
  induction formulas using List.reverseRecOn with
  | nil => rfl
  | append_singleton formulas f ih =>
    rw [ofFormulas_concat, get?_formulas_register, ih, List.reverse_concat]
    rfl

/-- What a cell reads is what the formula reads that was registered last. -/
theorem get?_dependencies_ofFormulas :
    Pairs.get? x (ofFormulas reads formulas).dependencies =
      (Pairs.get? x formulas.reverse).map reads := by
  induction formulas using List.reverseRecOn with
  | nil => rfl
  | append_singleton formulas f ih =>
    rw [ofFormulas_concat, get?_dependencies_register, ih, List.reverse_concat, Pairs.get?]
    split <;> rfl

/-- **The run lemma.** All registrations count for the dependents, in order. -/
theorem dependentsOf_ofFormulas :
    (ofFormulas reads formulas).dependentsOf r =
      formulas.flatMap fun f => List.replicate ((reads f.2).count r) f.1 := by
  induction formulas using List.reverseRecOn with
  | nil => rfl
  | append_singleton formulas f ih =>
    rw [ofFormulas_concat, dependentsOf_register, ih, List.flatMap_append, List.flatMap_singleton]

/-- What is listed for a name are the formulas that read it. -/
theorem mem_dependentsOf_ofFormulas :
    x ∈ (ofFormulas reads formulas).dependentsOf r ↔ ∃ f, (x, f) ∈ formulas ∧ r ∈ reads f := by
  rw [dependentsOf_ofFormulas, List.mem_flatMap]
  constructor
  · rintro ⟨⟨cell, f⟩, hf, hmem⟩
    obtain ⟨hcount, rfl⟩ := List.mem_replicate.1 hmem
    exact ⟨f, hf, List.count_pos_iff.1 (Nat.pos_of_ne_zero hcount)⟩
  · rintro ⟨f, hf, hr⟩
    exact ⟨(x, f), hf, List.mem_replicate.2 ⟨Nat.ne_of_gt (List.count_pos_iff.2 hr), rfl⟩⟩

/-- If no formula lists a name twice, the dependents are the cells registered with formulas that
read the name, one for each registration. -/
theorem dependentsOf_of_nodup (hreads : ∀ f, (reads f).Nodup) :
    (ofFormulas reads formulas).dependentsOf r =
      (formulas.filter fun f => r ∈ reads f.2).map Prod.fst := by
  rw [dependentsOf_ofFormulas]
  induction formulas with
  | nil => rfl
  | cons f formulas ih =>
    rw [List.flatMap_cons, ih, (hreads f.2).count, List.filter_cons]
    by_cases hr : r ∈ reads f.2
    · simp [hr]
    · simp [hr]

/-! ## Both directions -/

/-- Both directions of the graph agree, and nothing is listed twice. -/
structure InStep (graph : DependencyGraph Node Name) : Prop where
  mem_iff : ∀ name cell, cell ∈ graph.dependentsOf name ↔ name ∈ graph.dependenciesOf cell
  nodup_dependents : ∀ name, (graph.dependentsOf name).Nodup
  nodup_dependencies : ∀ cell, (graph.dependenciesOf cell).Nodup

theorem mem_dependenciesOf_ofFormulas :
    r ∈ (ofFormulas reads formulas).dependenciesOf x ↔
      ∃ f, Pairs.get? x formulas.reverse = some f ∧ r ∈ reads f := by
  rw [dependenciesOf, get?_dependencies_ofFormulas]
  cases Pairs.get? x formulas.reverse <;> simp

theorem nodup_dependenciesOf (hreads : ∀ f, (reads f).Nodup) :
    ((ofFormulas reads formulas).dependenciesOf x).Nodup := by
  rw [dependenciesOf, get?_dependencies_ofFormulas]
  cases Pairs.get? x formulas.reverse with
  | none => exact List.nodup_nil
  | some f => exact hreads f

/-- The formulas that are registered over read nothing. -/
def OverwritesNothing (reads : String → List Name) (formulas : List (Node × String)) : Prop :=
  formulas.Pairwise fun f later => f.1 = later.1 → reads f.2 = []

omit [DecidableEq Name] in
/-- A formula that reads something is then the last one of its cell. -/
theorem OverwritesNothing.get?_reverse (h : OverwritesNothing reads formulas) {f : String}
    (hf : (x, f) ∈ formulas) (hr : r ∈ reads f) : Pairs.get? x formulas.reverse = some f := by
  obtain ⟨before, after, rfl⟩ := List.append_of_mem hf
  have hlast : Pairs.get? x after.reverse = none := by
    cases hget : Pairs.get? x after.reverse with
    | none => rfl
    | some f' =>
      have hmem : (x, f') ∈ after := List.mem_reverse.1 (Pairs.mem_of_get? hget)
      have hover := (List.pairwise_cons.1 (List.pairwise_append.1 h).2.1).1 _ hmem rfl
      rw [hover] at hr
      cases hr
  rw [List.reverse_append, List.reverse_cons, List.append_assoc, Pairs.get?_append, hlast,
    Option.none_or, List.singleton_append, Pairs.get?, if_pos rfl]

theorem OverwritesNothing.inStep (h : OverwritesNothing reads formulas)
    (hreads : ∀ f, (reads f).Nodup) : (ofFormulas reads formulas).InStep where
  mem_iff name cell := by
    rw [mem_dependentsOf_ofFormulas, mem_dependenciesOf_ofFormulas]
    refine exists_congr fun f => and_congr_left fun hr => ⟨fun hf => h.get?_reverse hf hr, ?_⟩
    exact fun hget => List.mem_reverse.1 (Pairs.mem_of_get? hget)
  nodup_dependents name := by
    rw [dependentsOf_of_nodup hreads, List.Nodup, List.pairwise_map]
    refine (List.Pairwise.filter _ h).imp_of_mem fun {f later} hf _ hover heq => ?_
    have hname : name ∈ reads f.2 := by simpa using (List.mem_filter.1 hf).2
    rw [hover heq] at hname
    cases hname
  nodup_dependencies cell := nodup_dependenciesOf hreads

/-- A formula that reads something and is registered over stays among the dependents, beside the
later one if that reads the same. -/
theorem InStep.overwritesNothing (h : (ofFormulas reads formulas).InStep)
    (hreads : ∀ f, (reads f).Nodup) : OverwritesNothing reads formulas := by
  refine List.pairwise_iff_forall_sublist.2 fun {f later} hsub hcell => ?_
  obtain ⟨before, after, rfl, hf, hlater⟩ := List.cons_sublist_iff.1 hsub
  refine List.eq_nil_iff_forall_not_mem.2 fun name hname => ?_
  have hlisted : f.1 ∈ (ofFormulas reads (before ++ after)).dependentsOf name :=
    mem_dependentsOf_ofFormulas.2 ⟨f.2, List.mem_append_left after hf, hname⟩
  -- The last formula of the cell is among the later ones, and it reads the name as well.
  obtain ⟨last, hlast, hlastName⟩ := mem_dependenciesOf_ofFormulas.1 ((h.mem_iff _ _).1 hlisted)
  have hmem : (f.1, last) ∈ after := by
    obtain ⟨own, hown⟩ : ∃ own, Pairs.get? f.1 after.reverse = some own := by
      refine Pairs.exists_get? ?_
      rw [List.map_reverse, List.mem_reverse, hcell]
      exact List.mem_map_of_mem (List.singleton_sublist.1 hlater)
    rw [List.reverse_append, Pairs.get?_append, hown, Option.some_or] at hlast
    obtain rfl := Option.some.inj hlast
    exact List.mem_reverse.1 (Pairs.mem_of_get? hown)
  have hnodup := h.nodup_dependents name
  rw [dependentsOf_of_nodup hreads, List.filter_append, List.map_append] at hnodup
  refine (List.nodup_append.1 hnodup).2.2 f.1 ?_ f.1 ?_ rfl
  · exact List.mem_map_of_mem (List.mem_filter.2 ⟨hf, decide_eq_true hname⟩)
  · exact List.mem_map.2 ⟨_, List.mem_filter.2 ⟨hmem, decide_eq_true hlastName⟩, rfl⟩

/-- **Both directions agree exactly if no formula that reads something was registered over.** -/
theorem inStep_ofFormulas_iff (hreads : ∀ f, (reads f).Nodup) :
    (ofFormulas reads formulas).InStep ↔ OverwritesNothing reads formulas :=
  ⟨fun h => h.overwritesNothing hreads, fun h => h.inStep hreads⟩

end DependencyGraph

/-! ## Formulas -/

theorem nodup_eraseDups {α : Type} [DecidableEq α] (l : List α) : l.eraseDups.Nodup := by
  match l with
  | [] => exact List.nodup_nil
  | a :: l =>
    rw [List.eraseDups_cons, List.nodup_cons]
    refine ⟨?_, nodup_eraseDups _⟩
    rw [List.mem_eraseDups, List.mem_filter]
    simp
  termination_by l.length
  decreasing_by
    simp only [List.length_cons]
    exact Nat.lt_succ_of_le (List.length_filter_le _ l)

namespace Formula

/-- The names of the references that a formula reads. -/
def readNames (formula : String) : List String := (reads formula).map Reference.name

theorem nodup_reads (formula : String) : (reads formula).Nodup := nodup_eraseDups _

theorem exists_ofText {formula : String} {r : Reference} (h : r ∈ reads formula) :
    ∃ text, r = .ofText text := by
  rw [reads, references, List.mem_eraseDups, List.mem_filterMap] at h
  obtain ⟨piece, -, hpiece⟩ := h
  cases piece with
  | reference token => exact ⟨_, (Option.some.inj hpiece).symm⟩
  | other text => cases hpiece

theorem nodup_readNames (formula : String) : (readNames formula).Nodup := by
  rw [readNames, List.Nodup, List.pairwise_map]
  refine (nodup_reads formula).imp_of_mem fun {r s} hr hs hne hname => hne ?_
  obtain ⟨text, rfl⟩ := exists_ofText hr
  obtain ⟨text', rfl⟩ := exists_ofText hs
  exact Reference.ofText_inj_name.1 hname

end Formula

/-! ## Grids -/

namespace Grid

theorem inStep (g : Grid) : g.dependencyGraph.InStep := by
  refine DependencyGraph.OverwritesNothing.inStep ?_ Formula.nodup_reads
  exact (List.pairwise_map.1 g.nodup_formulaCells).imp fun hne heq => absurd heq hne

/-- The dependents of a reference are listed row by row. -/
theorem pairwise_dependentsOf (g : Grid) (r : Reference) :
    (g.dependencyGraph.dependentsOf r).Pairwise Address.Before := by
  rw [dependencyGraph, DependencyGraph.dependentsOf_of_nodup Formula.nodup_reads]
  exact g.pairwise_formulaCells.sublist (List.filter_sublist.map Prod.fst)

/-- What a cell of the graph reads is what its formula reads. -/
theorem get?_dependencies (g : Grid) (a : Address) :
    Pairs.get? a g.dependencyGraph.dependencies =
      ((g.get? a).bind Cell.formula).map Formula.reads := by
  rw [dependencyGraph, DependencyGraph.get?_dependencies_ofFormulas]
  refine congrArg (Option.map Formula.reads) (Option.ext fun f => ?_)
  have hnodup : (g.formulaCells.reverse.map Prod.fst).Nodup := by
    rw [List.map_reverse, List.Nodup, List.pairwise_reverse]
    exact g.nodup_formulaCells.imp Ne.symm
  rw [Pairs.get?_eq_some_iff hnodup, List.mem_reverse, mem_formulaCells, Option.bind_eq_some_iff]

end Grid

namespace DependencyGraph

/-- **Both directions agree unless a formula that reads something is registered over.** For texts: a
cell keeps the formula registered last and what this one reads, and it is a dependent once for each
of its registrations that reads a name. What an evaluation looks up for a formula is what the
formula reads, in the same order; it stops early only if it fails. In a grid both directions agree.
-/
theorem inStep_unless_overwritten (formulas : List (String × String)) (g : Grid) :
    ((∀ cell, Pairs.get? cell (ofFormulas Formula.readNames formulas).formulas =
          Pairs.get? cell formulas.reverse ∧
        Pairs.get? cell (ofFormulas Formula.readNames formulas).dependencies =
          (Pairs.get? cell formulas.reverse).map Formula.readNames) ∧
      (∀ name, (ofFormulas Formula.readNames formulas).dependentsOf name =
        (formulas.filter fun f => name ∈ Formula.readNames f.2).map Prod.fst) ∧
      ((ofFormulas Formula.readNames formulas).InStep ↔
        formulas.Pairwise fun f later => f.1 = later.1 → Formula.readNames f.2 = [])) ∧
    (∀ (formula : String) (origin : Reference) (tokens : Tokens),
      (g.lookups formula origin tokens).map Reference.name <+: Formula.readNames formula ∧
      ∀ x, (g.evaluateFormula formula origin tokens).1 = .ok x →
        (g.lookups formula origin tokens).map Reference.name = Formula.readNames formula) ∧
    g.dependencyGraph.InStep ∧
      (∀ a, Pairs.get? a g.dependencyGraph.dependencies =
        ((g.get? a).bind Cell.formula).map Formula.reads) ∧
      ∀ r, (g.dependencyGraph.dependentsOf r).Pairwise Address.Before := by
  refine ⟨⟨fun cell => ⟨get?_formulas_ofFormulas, get?_dependencies_ofFormulas⟩,
      fun name => dependentsOf_of_nodup Formula.nodup_readNames,
      inStep_ofFormulas_iff Formula.nodup_readNames⟩,
    fun formula origin tokens => ⟨Grid.lookups_isPrefix.map Reference.name, fun x hx => ?_⟩,
    g.inStep, g.get?_dependencies, g.pairwise_dependentsOf⟩
  exact congrArg (List.map Reference.name) (Grid.lookups_of_ok hx)

/-- Two formulas that read one cell are its dependents, in order, and no evaluation looks up more.
-/
theorem inStep_of_sum :
    (ofFormulas Formula.readNames [("C1", "=A1+B1"), ("D1", "=B1")]).InStep ∧
      (ofFormulas Formula.readNames [("C1", "=A1+B1"), ("D1", "=B1")]).dependentsOf "B1" =
        ["C1", "D1"] ∧
      ∀ g : Grid, (g.lookups "=A1+B1" (.cell ⟨0, 2⟩) []).map Reference.name <+: ["A1", "B1"] := by
  have hsum : Formula.readNames "=A1+B1" = ["A1", "B1"] := by decide +kernel
  have hcell : Formula.readNames "=B1" = ["B1"] := by decide +kernel
  have hgraph := inStep_unless_overwritten [("C1", "=A1+B1"), ("D1", "=B1")]
  let start := Grid.empty 1 1 (by decide) (by decide) (by decide)
  obtain ⟨⟨-, hdependents, hinStep⟩, -⟩ := hgraph start
  refine ⟨hinStep.2 (List.pairwise_pair.2 (by simp)), ?_, fun g => ?_⟩
  · rw [hdependents]
    simp [hsum, hcell]
  · obtain ⟨-, hlookups, -⟩ := hgraph g
    rw [← hsum]
    exact (hlookups "=A1+B1" (.cell ⟨0, 2⟩) []).1

/-- A cell that is registered again stays among the dependents of what it does not read any more. -/
theorem stale_dependent :
    (ofFormulas Formula.readNames [("B1", "=A1"), ("B1", "=C1")]).dependentsOf "A1" = ["B1"] ∧
      (ofFormulas Formula.readNames [("B1", "=A1"), ("B1", "=C1")]).dependenciesOf "B1" = ["C1"] ∧
      ¬ ∀ formulas : List (String × String), (ofFormulas Formula.readNames formulas).InStep := by
  have hdependents : (ofFormulas Formula.readNames
      [("B1", "=A1"), ("B1", "=C1")]).dependentsOf "A1" = ["B1"] := by decide +kernel
  have hdependencies : (ofFormulas Formula.readNames
      [("B1", "=A1"), ("B1", "=C1")]).dependenciesOf "B1" = ["C1"] := by decide +kernel
  refine ⟨hdependents, hdependencies, fun h => ?_⟩
  have hmem := (h [("B1", "=A1"), ("B1", "=C1")]).mem_iff "A1" "B1"
  rw [hdependents, hdependencies] at hmem
  exact absurd (hmem.1 List.mem_cons_self) (by decide)

end DependencyGraph

end Spreadsheet
