import Spreadsheet.Proofs.Evaluation.Search

/-!
# A search opens each formula once

**Theorem (`evaluate_opens_once`).** With no tokens at all, evaluation is plain recursion, and the
search that computes it is a finite run in which no reference gets a second frame. So a formula
that many others read is computed once, and the frames are no more than the cells of the grid.

A reference is met when a frame is opened for it. While the frame is open the reference is on the
path, and when the frame is left the reference has a token (`Met`). A frame is only opened for a
reference that was not met before, and what was met stays met (`opens_fresh`).
-/

namespace Spreadsheet

namespace Search

variable {g : Grid} {s t : Search}

/-! ## Runs -/

/-- The reference for which a step opens a frame, if it opens one. -/
def openedBy (s t : Search) : List Reference :=
  if s.below.length < t.below.length then [t.top.origin] else []

/-- The finite runs of a search, with the references for which frames are opened on the way and the
result. -/
inductive Runs (g : Grid) : Search → List Reference → Except FormulaError Float → Prop
  | ends {s : Search} {result : Except FormulaError Float} :
      s.step g = .inr result → Runs g s [] result
  | goesOn {s t : Search} {opened : List Reference} {result : Except FormulaError Float} :
      s.step g = .inl t → Runs g t opened result → Runs g s (s.openedBy t ++ opened) result

/-- Every search comes to an end, with the result that `run` gives. -/
theorem exists_runs (g : Grid) (s : Search) : ∃ opened, Runs g s opened (s.run g).1 := by
  induction s using Search.run.induct (g := g) with
  | case1 s t hstep ih =>
    obtain ⟨opened, hruns⟩ := ih
    rw [run_of_step_inl hstep]
    exact ⟨_, .goesOn hstep hruns⟩
  | case2 s result hstep =>
    rw [run_of_step_inr hstep]
    exact ⟨[], .ends hstep⟩

/-! ## What was met -/

/-- A reference that is on the path or has a token. -/
def Met (s : Search) (r : Reference) : Prop :=
  r ∈ chainOf (s.top :: s.below) ∨ (s.tokens.get? r).isSome = true

variable {r : Reference} {rest : List Reference} {tokens : Tokens} {frame parent : Frame}
  {below : List Frame} {token : String} {c : Cell}

theorem met_advance (htokens : (s.tokens.get? r).isSome = true → (tokens.get? r).isSome = true)
    (h : s.Met r) : (s.advance rest tokens).Met r := by
  rcases h with h | h
  · refine .inl ?_
    rw [chainOf_cons] at h
    exact (chainOf_cons _ _).symm ▸ h
  · exact .inr (htokens h)

/-- The reference of a frame that is left has a token from then on. -/
theorem met_leave (hbelow : s.below = parent :: below) (h : s.Met r) :
    Met ⟨parent, below, (s.top.origin, token) :: s.tokens⟩ r := by
  rcases h with h | h
  · rw [chainOf_cons, hbelow] at h
    rcases List.mem_append.1 h with h | h
    · exact .inl h
    · exact .inr (Tokens.isSome_get?_cons (.inl (List.mem_singleton.1 h)))
  · exact .inr (Tokens.isSome_get?_cons (.inr h))

theorem met_enter (h : s.Met r) : (s.enter rest frame).Met r := by
  rcases h with h | h
  · refine .inl ?_
    rw [chainOf_cons] at h
    rw [enter, chainOf_cons, chainOf_cons]
    exact List.mem_append_left _ h
  · exact .inr h

theorem met_origin : (s.enter rest frame).Met frame.origin := by
  refine .inl ?_
  rw [enter, chainOf_cons]
  exact List.mem_append_right _ List.mem_cons_self

/-! ## What is opened -/

theorem openedBy_advance : s.openedBy (s.advance rest tokens) = [] :=
  if_neg (Nat.lt_irrefl _)

theorem openedBy_leave (hbelow : s.below = parent :: below) :
    s.openedBy ⟨parent, below, tokens⟩ = [] :=
  if_neg (by simp [hbelow])

theorem openedBy_enter : s.openedBy (s.enter rest frame) = [frame.origin] :=
  if_pos (Nat.lt_succ_self _)

/-- No frame is opened for a reference that has a token. -/
theorem get?_eq_none_of_enter (hpending : s.top.pending = r :: rest)
    (hr : r ∉ chainOf (s.top :: s.below)) (hc : g.find? r = some c)
    (h : s.step g = .inl (s.enter rest frame)) : s.tokens.get? r = none := by
  cases hget : s.tokens.get? r with
  | none => rfl
  | some token =>
    have hon : ¬ onPath (s.top :: s.below) r = true := fun hon => hr (onPath_iff.1 hon)
    have hknown : s.step g = .inl (s.advance rest s.tokens) := by
      simp only [step, hpending, if_neg hon, hc, hget]
    have hbelow := congrArg (fun t => t.below.length) (Sum.inl.inj (hknown.symm.trans h))
    exact absurd hbelow (by simp [advance, enter])

/-- A frame is opened for a reference that was not met, and what was met stays met. -/
theorem opens_fresh (h : s.step g = .inl t) :
    (∀ r ∈ s.openedBy t, ¬ s.Met r ∧ t.Met r) ∧ ∀ r, s.Met r → t.Met r := by
  have hfinds := s.finds_step g
  rw [h] at hfinds
  cases hfinds with
  | leave _ _ hbelow => exact ⟨by simp [openedBy_leave hbelow], fun r => met_leave hbelow⟩
  | known => exact ⟨by simp [openedBy_advance], fun r => met_advance id⟩
  | literal =>
    exact ⟨by simp [openedBy_advance],
      fun r => met_advance fun hget => Tokens.isSome_get?_cons (.inr hget)⟩
  | enter hpending hr hc =>
    have hget := get?_eq_none_of_enter hpending hr hc h
    refine ⟨fun q hq => ?_, fun q => met_enter⟩
    rw [openedBy_enter, List.mem_singleton] at hq
    refine hq ▸ ⟨?_, met_origin⟩
    rintro (hmet | hmet)
    · exact hr hmet
    · rw [hget] at hmet
      cases hmet

theorem nodup_openedBy (s t : Search) : (s.openedBy t).Nodup := by
  unfold openedBy
  split
  · exact List.nodup_cons.2 ⟨List.not_mem_nil, List.nodup_nil⟩
  · exact List.nodup_nil

/-- In a whole run no reference is opened twice, and none that was met before. -/
theorem Runs.fresh {opened : List Reference} {result : Except FormulaError Float}
    (h : Runs g s opened result) : opened.Nodup ∧ ∀ r ∈ opened, ¬ s.Met r := by
  induction h with
  | ends => exact ⟨List.nodup_nil, nofun⟩
  | @goesOn s t opened result hstep _ ih =>
    obtain ⟨hfresh, hstays⟩ := opens_fresh hstep
    obtain ⟨hnodup, hnew⟩ := ih
    refine ⟨List.nodup_append.2 ⟨nodup_openedBy s t, hnodup, ?_⟩, fun r hr => ?_⟩
    · rintro r hr q hq rfl
      exact hnew r hq (hfresh r hr).2
    · rcases List.mem_append.1 hr with hr | hr
      · exact (hfresh r hr).1
      · exact fun hmet => hnew r hr (hstays r hmet)

end Search

/-! ## Evaluation -/

namespace Grid

/-- **Evaluation is plain recursion, and each formula is opened once.** A body with a foreign
character is refused before anything is opened. Otherwise the search is a finite run, and no
reference is opened twice in it, the evaluated cell included. -/
theorem evaluate_opens_once (g : Grid) (body : String) (origin : Reference) :
    (g.evaluate body origin []).1 = g.plainValue body origin ∧
      match Frame.ofBody origin body with
      | .error e => g.plainValue body origin = .error e
      | .ok frame => ∃ opened, Search.Runs g ⟨frame, [], []⟩ opened (g.plainValue body origin) ∧
          (origin :: opened).Nodup := by
  refine ⟨evaluate_nil g body origin, ?_⟩
  have hvalue := evaluate_nil g body origin
  unfold evaluate at hvalue
  cases hframe : Frame.ofBody origin body with
  | error e =>
    rw [hframe] at hvalue
    exact hvalue.symm
  | ok frame =>
    obtain ⟨opened, hruns⟩ := Search.exists_runs g ⟨frame, [], []⟩
    have hresult : (Search.run g ⟨frame, [], []⟩).1 = g.plainValue body origin := by
      rw [hframe] at hvalue
      rw [← hvalue]
      dsimp only
      split <;> rename_i heq <;> rw [heq]
    rw [hresult] at hruns
    obtain ⟨hnodup, hnew⟩ := hruns.fresh
    refine ⟨opened, hruns, List.nodup_cons.2 ⟨fun hmem => hnew origin hmem (.inl ?_), hnodup⟩⟩
    rw [chainOf_cons, origin_of_ofBody hframe]
    exact List.mem_append_right _ List.mem_cons_self

end Grid

end Spreadsheet
