import Spreadsheet.Proofs.Recalculation.Bounded
import Spreadsheet.Proofs.Recalculation.Spreading

/-!
# How a limit stops a commit

The limit of a commit counts the levels of the walk. A walk is depth first and visits no cell twice,
so it may meet a cell on a detour, at the limit, though the cell is only a few hops away. The change
is then not carried on from this cell, whatever other ways lead to it.

**Theorem (`evaluated_unless_stopped`).** Apart from this, hops are what counts. The depth at which a
cell is met is the length of a chain of hops to it (`Chain`), and every chain along cells that changed
and were met before the limit ends in a cell that is evaluated.
-/

namespace Spreadsheet

open Text

/-! ## Chains of hops -/

namespace Grid

variable {g k start : Grid} {p q : Address → Prop} {a b u : Address} {n : Nat} {limit : Int}
  {met : List (Evaluation × Nat)}

/-- So many hops along dependents lead from one cell to another: each cell but the first reads the one
before, and each but the last is of a kind. -/
inductive Chain (g : Grid) (p : Address → Prop) (a : Address) : Nat → Address → Prop
  | start : Chain g p a 0 a
  | hop {n : Nat} {b u : Address} :
      Chain g p a n b → p b → g.Reads (.cell u) (.cell b) → Chain g p a (n + 1) u

theorem Chain.mono (h : g.Chain p a n u)
    (hreads : ∀ {r s : Reference}, g.Reads r s → k.Reads r s) (hpq : ∀ b, p b → q b) :
    k.Chain q a n u := by
  induction h with
  | start => exact .start
  | hop _ hb hu ih => exact .hop ih (hpq _ hb) (hreads hu)

/-- The dependents on each level are so many hops away as there are levels from this one on. -/
def Layered (g : Grid) (p : Address → Prop) (a : Address) : List (List Address) → Prop
  | [] => True
  | l :: above => (∀ u ∈ l, g.Chain p a (above.length + 1) u) ∧ Layered g p a above

theorem Layered.mono {levels : List (List Address)} (h : g.Layered p a levels)
    (hpq : ∀ b, p b → q b) : g.Layered q a levels := by
  induction levels with
  | nil => trivial
  | cons l above ih => exact ⟨fun u hu => (h.1 u hu).mono id hpq, ih h.2⟩

/-- A walk that has met these cells went on from a cell: it is the first one, or it changed and was met
before the limit. -/
def Followed (start k : Grid) (a : Address) (limit : Int) (met : List (Evaluation × Nat))
    (b : Address) : Prop :=
  b = a ∨ start.Changes k b ∧ ∃ m ∈ met, m.1.address = b ∧ m.2 < limit

end Grid

/-! ## The walk -/

namespace Walk

variable {start : Grid} {a : Address} {limit : Int} {met : List (Evaluation × Nat)} {w t : Walk}
  {e : Evaluation} {c : Cell} {rest : List Address} {above levels : List (List Address)}

/-- What holds between two steps of a walk with a limit, of the depths at which it has met cells. -/
structure Hops (start : Grid) (a : Address) (limit : Int) (met : List (Evaluation × Nat))
    (w : Walk) : Prop where
  visits : w.Visits start a (met.map Prod.fst)
  depth : w.levels.length ≤ limit
  layered : start.Layered (start.Followed w.grid a limit met) a w.levels
  chains : ∀ m ∈ met, m.2 ≤ limit ∧
    start.Chain (start.Followed w.grid a limit met) a m.2 m.1.address
  carried : ∀ b, start.Followed w.grid a limit met b → ∀ u, start.Reads (.cell u) (.cell b) →
    u ∈ w.visited ∨ ∃ l ∈ w.levels, u ∈ l
  stops : w.stops = [] ↔ ∀ m ∈ met, start.Changes w.grid m.1.address → m.2 < limit

namespace Hops

theorem fresh (h : w.Hops start a limit met) (hm : w.Meets e c rest above) {m : Evaluation × Nat}
    (hmem : m ∈ met) : m.1.address ≠ e.address := by
  intro heq
  refine hm.fresh (h.visits.mem_visited.2 (.inr ?_))
  rw [← heq]
  exact List.mem_map_of_mem (List.mem_map_of_mem hmem)

/-- Another cell has changed after an evaluation if it had changed before. -/
theorem changes_stored (hm : w.Meets e c rest above) {b : Address} (hb : b ≠ e.address) :
    start.Changes e.stored b ↔ start.Changes w.grid b := by
  unfold Grid.Changes
  rw [hm.get?_stored, if_neg hb]

/-- Whether the evaluated cell has changed. -/
theorem changes_evaluated (h : w.Hops start a limit met) (hm : w.Meets e c rest above) :
    start.Changes e.stored e.address ↔ e.cell.value ≠ c.value ∧ e.cell.isError = false := by
  unfold Grid.Changes
  rw [hm.get?_stored, if_pos rfl, h.visits.before hm]
  simp only [Option.some.injEq, exists_and_left, exists_eq_left']

/-- The walk went on from a cell before an evaluation, or it goes on from the evaluated cell. -/
theorem followed_stored (h : w.Hops start a limit met) (hm : w.Meets e c rest above) {b : Address}
    {n : Nat} : start.Followed e.stored a limit (met ++ [(e, n)]) b ↔
      start.Followed w.grid a limit met b ∨ b = e.address ∧ start.Changes e.stored b ∧ n < limit := by
  constructor
  · rintro (rfl | ⟨hchanges, m, hmem, rfl, hlimit⟩)
    · exact .inl (.inl rfl)
    · rcases List.mem_append.1 hmem with hmem | hmem
      · have hbefore := (changes_stored hm (h.fresh hm hmem)).1 hchanges
        exact .inl (.inr ⟨hbefore, m, hmem, rfl, hlimit⟩)
      · obtain rfl := List.mem_singleton.1 hmem
        exact .inr ⟨rfl, hchanges, hlimit⟩
  · rintro ((rfl | ⟨hchanges, m, hmem, rfl, hlimit⟩) | ⟨rfl, hchanges, hlimit⟩)
    · exact .inl rfl
    · have hstill := (changes_stored hm (h.fresh hm hmem)).2 hchanges
      exact .inr ⟨hstill, m, List.mem_append_left _ hmem, rfl, hlimit⟩
    · exact .inr ⟨hchanges, (e, n), List.mem_append_right _ List.mem_cons_self, rfl, hlimit⟩

/-- The dependents of the evaluated cell are put on a level of their own, if the walk goes on from it.
That it does so is what adds to the cells it went on from. -/
theorem record (h : w.Hops start a limit met) (hm : w.Meets e c rest above)
    (hgoes : w.Goes start.dependencyGraph limit (some e) t) (hgrid : t.grid = e.stored)
    (hlevels : start.Changes e.stored e.address ∧ (above.length + 1 : Nat) < limit ∧
        t.levels = start.dependencyGraph.dependentsOf (.cell e.address) :: rest :: above ∨
      ¬ (start.Changes e.stored e.address ∧ (above.length + 1 : Nat) < limit) ∧
        t.levels = rest :: above)
    (hstops : t.stops = [] ↔
      w.stops = [] ∧ (start.Changes e.stored e.address → (above.length + 1 : Nat) < limit)) :
    t.Hops start a limit (met ++ [(e, above.length + 1)]) := by
  have hfollowed : ∀ b, start.Followed w.grid a limit met b →
      start.Followed t.grid a limit (met ++ [(e, above.length + 1)]) b := by
    rw [hgrid]
    exact fun b hb => (h.followed_stored hm).2 (.inl hb)
  have hdepth := h.depth
  obtain ⟨hnext, habove⟩ := hm.levels ▸ h.layered
  rw [hm.levels, List.length_cons] at hdepth
  have hhere := (hnext e.address List.mem_cons_self).mono id hfollowed
  have hrest : start.Layered (start.Followed t.grid a limit (met ++ [(e, above.length + 1)])) a
      (rest :: above) :=
    ⟨fun u hu => (hnext u (List.mem_cons_of_mem _ hu)).mono id hfollowed, habove.mono hfollowed⟩
  constructor
  case visits =>
    have hvisits := h.visits.step hgoes
    rwa [List.map_append]
  case depth =>
    rcases hlevels with ⟨-, hlimit, hlevels⟩ | ⟨-, hlevels⟩ <;>
      rw [hlevels] <;> simp only [List.length_cons] at hdepth ⊢ <;> omega
  case layered =>
    rcases hlevels with ⟨hchanges, hlimit, hlevels⟩ | ⟨-, hlevels⟩
    · have hled : start.Followed t.grid a limit (met ++ [(e, above.length + 1)]) e.address := by
        rw [hgrid]
        exact (h.followed_stored hm).2 (.inr ⟨rfl, hchanges, hlimit⟩)
      rw [hlevels]
      exact ⟨fun u hu => .hop hhere hled (Grid.mem_dependentsOf.1 hu), hrest⟩
    · rw [hlevels]
      exact hrest
  case chains =>
    intro m hmem
    rcases List.mem_append.1 hmem with hmem | hmem
    · exact ⟨(h.chains m hmem).1, (h.chains m hmem).2.mono id hfollowed⟩
    · rw [List.mem_singleton.1 hmem]
      exact ⟨hdepth, hhere⟩
  case carried =>
    intro b hb u hu
    rw [hgrid] at hb
    rcases (h.followed_stored hm).1 hb with hb | ⟨rfl, hchanges, hlimit⟩
    · exact hgoes.seen (h.carried b hb u hu)
    · rcases hlevels with ⟨-, -, hlevels⟩ | ⟨hno, -⟩
      · rw [hlevels]
        exact .inr ⟨_, List.mem_cons_self, Grid.mem_dependentsOf.2 hu⟩
      · exact absurd ⟨hchanges, hlimit⟩ hno
  case stops =>
    rw [hstops, h.stops, hgrid]
    simp only [List.forall_mem_append, List.forall_mem_singleton]
    refine and_congr_left fun _ => forall_congr' fun m => forall_congr' fun hmem => ?_
    rw [changes_stored hm (h.fresh hm hmem)]

/-- Levels may be left, and dependents on them that were visited. -/
theorem drop (h : w.Hops start a limit met) (hvisits : Visits start a (met.map Prod.fst)
      { w with levels := levels })
    (hlength : levels.length ≤ w.levels.length)
    (hlayered : start.Layered (start.Followed w.grid a limit met) a levels)
    (hseen : ∀ u, (u ∈ w.visited ∨ ∃ l ∈ w.levels, u ∈ l) → u ∈ w.visited ∨ ∃ l ∈ levels, u ∈ l) :
    Hops start a limit met { w with levels := levels } where
  visits := hvisits
  depth := Int.le_trans (Int.ofNat_le.2 hlength) h.depth
  layered := hlayered
  chains := h.chains
  carried b hb u hu := hseen u (h.carried b hb u hu)
  stops := h.stops

/-- **The step lemma.** -/
theorem step (h : w.Hops start a limit met) {e? : Option Evaluation}
    (hgoes : w.Goes start.dependencyGraph limit e? t) :
    t.Hops start a limit (met ++ (e?.map fun e => (e, w.levels.length)).toList) := by
  have hvisits := h.visits.step hgoes
  have hseen : ∀ u, _ → _ := fun u => hgoes.seen (u := u)
  have hgoes' := hgoes
  cases hgoes with
  | leaves hlevels =>
    rw [Option.toList_none, List.append_nil] at hvisits
    rw [Option.map_none, Option.toList_none, List.append_nil]
    refine h.drop hvisits ?_ (hlevels ▸ h.layered).2 hseen
    rw [hlevels]
    exact Nat.le_succ _
  | skips hlevels _ =>
    rw [Option.toList_none, List.append_nil] at hvisits
    rw [Option.map_none, Option.toList_none, List.append_nil]
    obtain ⟨hnext, habove⟩ := hlevels ▸ h.layered
    refine h.drop hvisits ?_ ⟨fun u hu => hnext u (List.mem_cons_of_mem _ hu), habove⟩ hseen
    rw [hlevels]
    exact Nat.le_refl _
  | passes hlevels _ hnone =>
    obtain ⟨c, formula, hc, hf⟩ := h.visits.formula_of_pending hlevels
    rw [hnone c hc] at hf
    cases hf
  | @holds e c rest above hm hquiet =>
    have hno : ¬ start.Changes e.stored e.address := by
      rw [h.changes_evaluated hm]
      rintro ⟨hvalue, hclean⟩
      rcases hquiet with hsame | herror
      · exact hvalue hsame
      · rw [herror] at hclean
        cases hclean
    rw [Option.map_some, Option.toList_some, hm.levels, List.length_cons]
    exact h.record hm hgoes' rfl (.inr ⟨fun hyes => hno hyes.1, rfl⟩)
      ⟨fun hstops => ⟨hstops, fun hyes => absurd hyes hno⟩, And.left⟩
  | @stops e c rest above hm hvalue hclean hlimit =>
    have hchanges := (h.changes_evaluated hm).2 ⟨hvalue, hclean⟩
    rw [Option.map_some, Option.toList_some, hm.levels, List.length_cons]
    refine h.record hm hgoes' rfl (.inr ⟨fun hyes => Int.not_lt.2 hlimit hyes.2, rfl⟩)
      ⟨fun hstops => absurd hstops (by simp), fun hstops => ?_⟩
    exact absurd (hstops.2 hchanges) (Int.not_lt.2 hlimit)
  | @follows e c rest above hm hvalue hclean hlimit =>
    have hchanges := (h.changes_evaluated hm).2 ⟨hvalue, hclean⟩
    rw [Option.map_some, Option.toList_some, hm.levels, List.length_cons]
    exact h.record hm hgoes' rfl (.inl ⟨hchanges, hlimit, rfl⟩)
      ⟨fun hstops => ⟨hstops, fun _ => hlimit⟩, And.left⟩

end Hops

end Walk

/-! ## Commits -/

namespace Grid

variable {g : Grid} {a : Address} {limit : Int} {text : String}

/-- The dependents that a commit evaluates, in order, with the depths at which it meets them. -/
def meetings (g : Grid) (limit : Int) (a : Address) (text : String) : List (Evaluation × Nat) :=
  if g.carriesOn a text then
    ((g.entered a text).walkFrom a (g.enteredTokens a text)).meetings
      (g.entered a text).dependencyGraph limit
  else []

/-- What holds at the end of the walk of a commit. -/
theorem hops_commit (ha : g.Contains a) (hlimit : 1 ≤ limit) (h : g.carriesOn a text = true) :
    ((g.entered a text).propagate a limit (g.enteredTokens a text)).Hops (g.entered a text) a limit
      (g.meetings limit a text) := by
  have hfrom : ((g.entered a text).walkFrom a (g.enteredTokens a text)).Hops (g.entered a text) a
      limit [] := by
    refine ⟨visits_walkFrom (contains_set.2 ha : (g.entered a text).Contains a) _, hlimit,
      ⟨fun u hu => ?_, trivial⟩, nofun, ?_, ⟨fun _ => nofun, fun _ => rfl⟩⟩
    · exact .hop .start (.inl rfl) (mem_dependentsOf.1 hu)
    · rintro b (rfl | ⟨-, m, hm, -⟩) u hu
      · exact .inr ⟨_, List.mem_cons_self, mem_dependentsOf.2 hu⟩
      · cases hm
  rw [meetings, if_pos h, propagate_eq]
  exact (Walk.runs_run ..).induction (fun _ _ _ _ hgoes hw => hw.step hgoes) [] hfrom

theorem map_fst_meetings (g : Grid) (limit : Int) (a : Address) (text : String) :
    (g.meetings limit a text).map Prod.fst = g.dependentEvaluations limit a text := by
  unfold meetings dependentEvaluations
  split
  · exact Walk.map_fst_meetings ..
  · rfl

/-- A commit after which the entered cell shows a change that is no error carries the change on. -/
theorem carriesOn_of_changes (ha : g.Contains a) (h : g.Changes (g.commit limit a text).1 a) :
    g.carriesOn a text = true := by
  cases hcarries : g.carriesOn a text with
  | true => rfl
  | false =>
    rw [grid_commit_cases, hcarries, if_neg Bool.false_ne_true] at h
    exact absurd h (not_changes_entered ha hcarries)

/-- A formula cell that was entered or met was evaluated in the commit. -/
theorem mem_commitEvaluations (ha : g.Contains a) {u : Address} {s : Reference}
    (hu : u ∈ g.touched limit a text) (hreads : (g.entered a text).Reads (.cell u) s) :
    ∃ e ∈ g.commitEvaluations limit a text, e.address = u := by
  rcases List.mem_cons.1 hu with rfl | hu
  · obtain ⟨c, formula, hc, hf, -⟩ := hreads
    have hget : (g.entered u text).get? u = some (g.enter u (strip text)).1 :=
      (get?_set ha).trans (if_pos rfl)
    obtain rfl := Option.some.inj (hget.symm.trans hc)
    have hformula : Formula.isFormula (strip text) = true := by
      by_contra hno
      rw [(enter_other (Bool.eq_false_iff.2 hno)).1] at hf
      cases hf
    refine ⟨⟨g, u, strip text, []⟩, ?_, rfl⟩
    rw [commitEvaluations, if_pos hformula]
    exact List.mem_append_left _ List.mem_cons_self
  · obtain ⟨e, he, rfl⟩ := List.mem_map.1 hu
    exact ⟨e, List.mem_append_right _ he, rfl⟩

/-- A commit carries the change on from a cell: what it shows has changed and is no error, and it was
not met at the limit. -/
def CarriedFrom (g : Grid) (limit : Int) (a : Address) (text : String) (b : Address) : Prop :=
  g.Changes (g.commit limit a text).1 b ∧
    ∀ m ∈ g.meetings limit a text, m.1.address = b → m.2 < limit

/-- The entered cell is not met. -/
theorem ne_of_mem_meetings (ha : g.Contains a) {m : Evaluation × Nat}
    (hm : m ∈ g.meetings limit a text) : m.1.address ≠ a := by
  have hmem : m.1 ∈ g.dependentEvaluations limit a text := by
    rw [← map_fst_meetings]
    exact List.mem_map_of_mem hm
  rintro rfl
  exact (List.nodup_cons.1 (nodup_touched ha limit text).1).1 (List.mem_map_of_mem hmem)

/-- Whether a cell that is met has changed since the text was entered, or since before. -/
theorem changes_met (ha : g.Contains a) {m : Evaluation × Nat}
    (hm : m ∈ g.meetings limit a text) {k : Grid} :
    (g.entered a text).Changes k m.1.address ↔ g.Changes k m.1.address := by
  unfold Changes
  rw [get?_entered ha text (ne_of_mem_meetings ha hm)]

/-- The walk went on from the cells from which the commit carries the change on. -/
theorem followed_iff (ha : g.Contains a)
    (hchanges : g.Changes (g.commit limit a text).1 a) {b : Address} :
    (g.entered a text).Followed (g.commit limit a text).1 a limit (g.meetings limit a text) b ↔
      b ∈ g.touched limit a text ∧ g.CarriedFrom limit a text b := by
  have hnodup : ((g.meetings limit a text).map (Evaluation.address ∘ Prod.fst)).Nodup := by
    rw [← List.map_map, map_fst_meetings]
    exact (List.nodup_cons.1 (nodup_touched ha limit text).1).2
  constructor
  · rintro (rfl | ⟨hb, m, hm, rfl, hbefore⟩)
    · exact ⟨List.mem_cons_self, hchanges, fun m hm heq => absurd heq (ne_of_mem_meetings ha hm)⟩
    · refine ⟨?_, (changes_met ha hm).1 hb, fun m' hm' heq => ?_⟩
      · rw [touched, ← map_fst_meetings]
        exact List.mem_cons_of_mem _ (List.mem_map_of_mem (List.mem_map_of_mem hm))
      · rwa [List.inj_on_of_nodup_map hnodup hm' hm heq]
  · rintro ⟨hb, hb', hbefore⟩
    rcases List.mem_cons.1 hb with rfl | hb
    · exact .inl rfl
    · rw [← map_fst_meetings, List.map_map] at hb
      obtain ⟨m, hm, rfl⟩ := List.mem_map.1 hb
      exact .inr ⟨(changes_met ha hm).2 hb', m, hm, rfl, hbefore m hm rfl⟩

/-- Where a chain of hops ends that the change is carried along. -/
theorem mem_touched_of_chain (ha : g.Contains a) (hlimit : 1 ≤ limit)
    (hchanges : g.Changes (g.commit limit a text).1 a) {n : Nat} {u : Address}
    (h : (g.entered a text).Chain (g.CarriedFrom limit a text) a n u) :
    u ∈ g.touched limit a text := by
  have hcarries := carriesOn_of_changes ha hchanges
  have hhops := hops_commit ha hlimit hcarries
  have hgrid := grid_commit_of_carriesOn hcarries limit
  have hend := Walk.levels_run (g.entered a text).dependencyGraph limit
    ((g.entered a text).walkFrom a (g.enteredTokens a text))
  rw [← propagate_eq] at hend
  induction h with
  | start => exact List.mem_cons_self
  | @hop n b u _ hb hu ih =>
    have hfollowed := (followed_iff ha hchanges).2 ⟨ih, hb⟩
    rw [hgrid] at hfollowed
    rcases hhops.carried b hfollowed u hu with hvisited | ⟨l, hl, -⟩
    · rw [hhops.visits.mem_visited, map_fst_meetings] at hvisited
      exact List.mem_cons.2 hvisited
    · rw [hend] at hl
      cases hl

/-- **Hops count, but for cells met at the limit.** If what the committed cell shows has changed and is
no error, every chain along cells from which the change is carried on ends in a formula that is
evaluated, however long the chain is. And the depth at which a cell is met is the length of such a
chain to it. The commit warns of no stop if and only if no cell with a change that is no error was
met at the limit. -/
theorem evaluated_unless_stopped (ha : g.Contains a) (hlimit : 1 ≤ limit)
    (hchanges : g.Changes (g.commit limit a text).1 a) :
    (∀ n u, (g.commit limit a text).1.Chain (g.CarriedFrom limit a text) a n u → 0 < n →
      ∃ e ∈ g.commitEvaluations limit a text, e.address = u) ∧
    (∀ m ∈ g.meetings limit a text, m.2 ≤ limit ∧
      (g.commit limit a text).1.Chain (g.CarriedFrom limit a text) a m.2 m.1.address) ∧
    ((g.commit limit a text).2.stops = [] ↔ ∀ m ∈ g.meetings limit a text,
      g.Changes (g.commit limit a text).1 m.1.address → m.2 < limit) := by
  have hcarries := carriesOn_of_changes ha hchanges
  have hhops := hops_commit ha hlimit hcarries
  have hgrid := grid_commit_of_carriesOn hcarries limit
  have hreads : ∀ {r s}, (g.commit limit a text).1.Reads r s ↔ (g.entered a text).Reads r s :=
    (calculated_commit g limit a text).sameInputs.reads
  refine ⟨fun n u hchain hn => ?_, fun m hm => ⟨(hhops.chains m hm).1, ?_⟩, ?_⟩
  · have hmem := mem_touched_of_chain ha hlimit hchanges (hchain.mono hreads.1 fun _ => id)
    cases hchain with
    | start => exact absurd hn (Nat.lt_irrefl 0)
    | hop _ _ hu => exact mem_commitEvaluations ha hmem (hreads.1 hu)
  · refine (hhops.chains m hm).2.mono hreads.2 fun b hb => ?_
    rw [← hgrid] at hb
    exact ((followed_iff ha hchanges).1 hb).2
  · rw [(result_of_carriesOn hcarries limit).2.2, hhops.stops, ← hgrid]
    exact forall_congr' fun m => forall_congr' fun hm => by rw [changes_met ha hm]

/-! ### A detour -/

/-- The third cell reads the first one, and also the second one, which does so too. The fourth cell is
two hops away from the first one. -/
def detour : Grid where
  rows := 1
  columns := 4
  rows_pos := Nat.one_pos
  columns_pos := by decide
  columns_le := by decide
  cells := #v[⟨"1", none, .none⟩, ⟨"1", some "=A1", .none⟩, ⟨"2", some "=A1+B1", .none⟩,
    ⟨"2", some "=C1", .none⟩]

theorem current_detour : detour.Current := by
  have hall : detour.formulaCells.all (fun p =>
      (detour.evaluateFormulaWithin 9 p.2 (.cell p.1) []).map
        (fun found => Cell.ofResult p.2 found.1) == detour.get? p.1) = true := by
    decide +kernel
  intro a c hc formula hf
  have hresult := List.all_eq_true.1 hall (a, formula) (mem_formulaCells.2 ⟨c, hc, hf⟩)
  rw [beq_iff_eq, hc] at hresult
  obtain ⟨found, hfound, rfl⟩ := Option.map_eq_some_iff.1 hresult
  rw [evaluateFormula_of_within hfound]

/-- With a limit of two, a commit to the first cell meets the third one over the second one. It changes
the third cell and does not come to the fourth one. -/
theorem propagate_detour :
    let walk := (detour.entered ⟨0, 0⟩ "2").propagate ⟨0, 0⟩ 2 (detour.enteredTokens ⟨0, 0⟩ "2")
    (walk.visited = [⟨0, 2⟩, ⟨0, 1⟩, ⟨0, 0⟩] ∧ walk.grid.get? ⟨0, 0⟩ = some ⟨"2", none, .none⟩) ∧
      walk.grid.get? ⟨0, 2⟩ = some ⟨"4", some "=A1+B1", .none⟩ := by
  have hrun : (((detour.entered ⟨0, 0⟩ "2").walkFrom ⟨0, 0⟩
        (detour.enteredTokens ⟨0, 0⟩ "2")).runWithin (detour.entered ⟨0, 0⟩ "2").dependencyGraph
        2 9 9).any (fun w => w.visited == [⟨0, 2⟩, ⟨0, 1⟩, ⟨0, 0⟩] &&
          w.grid.get? ⟨0, 0⟩ == some ⟨"2", none, .none⟩ &&
          w.grid.get? ⟨0, 2⟩ == some ⟨"4", some "=A1+B1", .none⟩) = true := by
    decide +kernel
  have hall := Walk.any_run hrun
  simp only [Bool.and_eq_true, beq_iff_eq] at hall
  rw [propagate_eq]
  exact hall

theorem carriesOn_detour : detour.carriesOn ⟨0, 0⟩ "2" = true := by
  decide +kernel

/-- The first and the third cell change, and the fourth one is not evaluated. -/
theorem commit_detour :
    let k := (detour.commit 2 ⟨0, 0⟩ "2").1
    detour.Changes k ⟨0, 0⟩ ∧ detour.Changes k ⟨0, 2⟩ ∧
      ¬ ∃ e ∈ detour.commitEvaluations 2 ⟨0, 0⟩ "2", e.address = ⟨0, 3⟩ := by
  obtain ⟨⟨hvisited, hfirst⟩, hthird⟩ := propagate_detour
  rw [grid_commit_cases, if_pos carriesOn_detour]
  have hvalues : detour.get? ⟨0, 0⟩ = some ⟨"1", none, .none⟩ ∧
      detour.get? ⟨0, 2⟩ = some ⟨"2", some "=A1+B1", .none⟩ := by decide +kernel
  refine ⟨⟨_, _, hvalues.1, hfirst, by decide, by decide⟩,
    ⟨_, _, hvalues.2, hthird, by decide, by decide⟩, ?_⟩
  rintro ⟨e, he, haddress⟩
  have hformula : Formula.isFormula (strip "2") = false := by decide +kernel
  have hcontains : (detour.entered ⟨0, 0⟩ "2").Contains ⟨0, 0⟩ := contains_set.2 (by decide)
  rw [commitEvaluations, hformula, if_neg Bool.false_ne_true, List.nil_append,
    dependentEvaluations_of_carriesOn carriesOn_detour] at he
  have hmem := (visits_propagate hcontains 2 (detour.enteredTokens ⟨0, 0⟩ "2")).1.mem_visited.2
    (.inr (List.mem_map_of_mem he))
  rw [hvisited, haddress] at hmem
  revert hmem
  decide

/-- The fourth cell is two hops away from the first one. -/
theorem reads_detour :
    let k := (detour.commit 2 ⟨0, 0⟩ "2").1
    k.Reads (.cell ⟨0, 2⟩) (.cell ⟨0, 0⟩) ∧ k.Reads (.cell ⟨0, 3⟩) (.cell ⟨0, 2⟩) := by
  have hlisted : ⟨0, 2⟩ ∈ (detour.entered ⟨0, 0⟩ "2").dependencyGraph.dependentsOf (.cell ⟨0, 0⟩) ∧
      ⟨0, 3⟩ ∈ (detour.entered ⟨0, 0⟩ "2").dependencyGraph.dependentsOf (.cell ⟨0, 2⟩) := by
    decide +kernel
  have hreads : ∀ {r s}, (detour.commit 2 ⟨0, 0⟩ "2").1.Reads r s ↔
      (detour.entered ⟨0, 0⟩ "2").Reads r s :=
    (calculated_commit detour 2 ⟨0, 0⟩ "2").sameInputs.reads
  exact ⟨hreads.2 (mem_dependentsOf.1 hlisted.1), hreads.2 (mem_dependentsOf.1 hlisted.2)⟩

/-- No chain along which the change is carried leads to the fourth cell. -/
theorem detour_stopped :
    detour.Contains ⟨0, 0⟩ ∧ (1 : Int) ≤ 2 ∧
      detour.Changes (detour.commit 2 ⟨0, 0⟩ "2").1 ⟨0, 0⟩ ∧
      ∀ n, ¬ (detour.commit 2 ⟨0, 0⟩ "2").1.Chain (detour.CarriedFrom 2 ⟨0, 0⟩ "2") ⟨0, 0⟩ n
        ⟨0, 3⟩ := by
  obtain ⟨hchanges, -, hmissed⟩ := commit_detour
  have hcontains : detour.Contains ⟨0, 0⟩ := by decide
  refine ⟨hcontains, by decide, hchanges, fun n hchain => ?_⟩
  cases n with
  | zero => cases hchain
  | succ n =>
    exact hmissed ((evaluated_unless_stopped hcontains (by decide) hchanges).1 _ _ hchain
      (Nat.succ_pos n))

/-- A formula may be missed that is within as many hops as the limit allows. -/
theorem missed_within_limit :
    ¬ ∀ (g : Grid) (limit : Int) (a : Address) (text : String), g.Current → g.Contains a →
      1 ≤ limit → g.Changes (g.commit limit a text).1 a →
      ∀ (n : Nat) (u : Address), n ≤ limit → 0 < n →
        (g.commit limit a text).1.Chain (g.Changes (g.commit limit a text).1) a n u →
        ∃ e ∈ g.commitEvaluations limit a text, e.address = u := by
  intro h
  obtain ⟨hfirst, hthird, hmissed⟩ := commit_detour
  obtain ⟨hhop, hhop'⟩ := reads_detour
  refine hmissed (h detour 2 ⟨0, 0⟩ "2" current_detour (by decide) (by decide) hfirst 2 ⟨0, 3⟩
    (by decide) (by decide) ?_)
  exact .hop (.hop .start hfirst hhop) hthird hhop'

end Grid

end Spreadsheet
