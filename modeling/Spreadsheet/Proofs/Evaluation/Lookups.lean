import Spreadsheet.Proofs.Evaluation.Search

/-!
# Which references an evaluation looks up

The search for the value of a formula looks up the references in it, and opens the formulas that it
finds there. We tell the first apart from what is looked up for the formulas opened on the way.

**Theorem (`lookups_isPrefix`, `lookups_of_ok`).** What is looked up for the evaluated formula are
the references that it reads, in order, and each of them once. The search may end before all of them
were looked up, but only if it fails.

At each moment the references that the outermost frame still has to look up (`unread`) are those
that the next step looks up and those unread after it, so nothing is left out and nothing looked up
again.
-/

namespace Spreadsheet

namespace Search

variable {g : Grid} {s t : Search} {r : Reference} {rest : List Reference} {tokens : Tokens}
  {frame : Frame}

/-! ## The outermost frame -/

/-- What the outermost frame of a path still has to look up. -/
def unreadOf : Frame → List Frame → List Reference
  | f, [] => f.pending
  | _, parent :: below => unreadOf parent below

/-- What is still to be looked up for the evaluated formula. -/
def unread (s : Search) : List Reference := unreadOf s.top s.below

/-- What the next step looks up for the evaluated formula: one reference at most, and none as long
as other formulas are open. -/
def lookedUp (s : Search) : List Reference :=
  if s.below = [] then s.top.pending.take 1 else []

theorem unread_of_nil (h : s.below = []) : s.unread = s.top.pending := by
  rw [unread, h]
  rfl

theorem unread_of_cons {parent : Frame} {below : List Frame} (h : s.below = parent :: below) :
    s.unread = unreadOf parent below := by
  rw [unread, h]
  rfl

theorem lookedUp_of_cons {parent : Frame} {below : List Frame} (h : s.below = parent :: below) :
    s.lookedUp = [] :=
  if_neg (by simp [h])

theorem lookedUp_isPrefix (s : Search) : s.lookedUp <+: s.unread := by
  cases hbelow : s.below with
  | nil =>
    rw [lookedUp, if_pos hbelow, unread_of_nil hbelow]
    exact List.take_prefix 1 _
  | cons parent below =>
    rw [lookedUp_of_cons hbelow]
    exact List.nil_prefix

/-! ## Steps -/

theorem unread_advance (hpending : s.top.pending = r :: rest) :
    s.unread = s.lookedUp ++ (s.advance rest tokens).unread := by
  cases hbelow : s.below with
  | nil =>
    rw [unread_of_nil hbelow, lookedUp, if_pos hbelow,
      unread_of_nil (s := s.advance rest tokens) hbelow, hpending]
    rfl
  | cons parent below =>
    rw [unread_of_cons hbelow, lookedUp_of_cons hbelow,
      unread_of_cons (s := s.advance rest tokens) hbelow, List.nil_append]

theorem unread_enter : (s.enter rest frame).unread = (s.advance rest s.tokens).unread := rfl

/-- **The step lemma.** What is unread before a step is what the step looks up and what is unread
after it. -/
theorem unread_of_step (h : s.step g = .inl t) : s.unread = s.lookedUp ++ t.unread := by
  have hfinds := s.finds_step g
  rw [h] at hfinds
  cases hfinds with
  | leave _ _ hbelow =>
    rw [unread_of_cons hbelow, lookedUp_of_cons hbelow]
    rfl
  | known hpending => exact unread_advance hpending
  | literal hpending => exact unread_advance hpending
  | enter hpending =>
    rw [unread_enter]
    exact unread_advance hpending

/-- A search that ends with a value has looked up everything. -/
theorem unread_of_value {x : Float} (h : s.step g = .inr (.ok x)) : s.unread = [] := by
  have hfinds := s.finds_step g
  rw [h] at hfinds
  cases hfinds with
  | value hpending _ hbelow => rw [unread_of_nil hbelow, hpending]

/-! ## Runs -/

/-- What a whole search looks up for the evaluated formula, in order. -/
def lookups (g : Grid) (s : Search) : List Reference :=
  match _h : s.step g with
  | .inl next => s.lookedUp ++ lookups g next
  | .inr _ => s.lookedUp
  termination_by s.measure g
  decreasing_by exact measure_step _h

theorem lookups_of_step_inl (h : s.step g = .inl t) : s.lookups g = s.lookedUp ++ t.lookups g := by
  rw [lookups]
  split
  · rename_i u hu
    rw [h] at hu
    cases hu
    rfl
  · rename_i hu
    rw [h] at hu
    cases hu

theorem lookups_of_step_inr {result : Except FormulaError Float} (h : s.step g = .inr result) :
    s.lookups g = s.lookedUp := by
  rw [lookups]
  split
  · rename_i hu
    rw [h] at hu
    cases hu
  · rfl

/-- **The run lemma.** A search looks up what is unread, in order, and all of it if it finds a
value. -/
theorem lookups_run (g : Grid) (s : Search) :
    s.lookups g <+: s.unread ∧ ∀ x, (s.run g).1 = .ok x → s.lookups g = s.unread := by
  induction s using Search.run.induct (g := g) with
  | case1 s t hstep ih =>
    obtain ⟨hfirst, hall⟩ := ih
    rw [lookups_of_step_inl hstep, unread_of_step hstep, run_of_step_inl hstep]
    exact ⟨(List.prefix_append_right_inj _).2 hfirst, fun x hx => congrArg _ (hall x hx)⟩
  | case2 s result hstep =>
    rw [lookups_of_step_inr hstep, run_of_step_inr hstep]
    refine ⟨lookedUp_isPrefix s, ?_⟩
    rintro x rfl
    have hunread := unread_of_value hstep
    have hlooked := lookedUp_isPrefix s
    rw [hunread] at hlooked ⊢
    exact List.prefix_nil.1 hlooked

end Search

/-! ## Formulas -/

namespace Grid

variable {g : Grid} {formula : String} {origin : Reference} {tokens : Tokens}

/-- The references that an evaluation looks up for its formula, in order. Those of a formula with a
foreign character are not looked up. -/
def lookups (g : Grid) (formula : String) (origin : Reference) (tokens : Tokens) : List Reference :=
  match Frame.ofBody origin (Formula.body formula) with
  | .error _ => []
  | .ok frame => Search.lookups g ⟨frame, [], tokens⟩

theorem lookups_of_foreign (h : Formula.hasForeignChar (Formula.body formula) = true) :
    g.lookups formula origin tokens = [] := by
  rw [lookups, Frame.ofBody, if_pos h]

/-- The search for the value of a formula starts with all that it reads unread. -/
theorem lookups_of_plain (h : Formula.hasForeignChar (Formula.body formula) = false) :
    g.lookups formula origin tokens <+: Formula.reads formula ∧
      ∀ x, (g.evaluateFormula formula origin tokens).1 = .ok x →
        g.lookups formula origin tokens = Formula.reads formula := by
  have hframe : Frame.ofBody origin (Formula.body formula) =
      .ok ⟨origin, Formula.body formula, Formula.reads formula⟩ := by
    rw [Frame.ofBody, h]
    rfl
  have hrun := Search.lookups_run g
    ⟨⟨origin, Formula.body formula, Formula.reads formula⟩, [], tokens⟩
  rw [Search.unread_of_nil rfl] at hrun
  dsimp only at hrun
  rw [lookups, evaluateFormula, evaluate, hframe]
  dsimp only
  refine ⟨hrun.1, fun x hx => hrun.2 x ?_⟩
  split at hx
  · rename_i y known heq
    rw [heq, ← hx]
  · cases hx

/-- **Nothing is looked up but what the formula reads**, in this order. -/
theorem lookups_isPrefix : g.lookups formula origin tokens <+: Formula.reads formula := by
  cases hforeign : Formula.hasForeignChar (Formula.body formula) with
  | true =>
    rw [lookups_of_foreign hforeign]
    exact List.nil_prefix
  | false => exact (lookups_of_plain hforeign).1

/-- **For a value all is looked up that the formula reads.** -/
theorem lookups_of_ok {x : Float} (h : (g.evaluateFormula formula origin tokens).1 = .ok x) :
    g.lookups formula origin tokens = Formula.reads formula := by
  cases hforeign : Formula.hasForeignChar (Formula.body formula) with
  | true =>
    rw [evaluateFormula, evaluate, Frame.ofBody, if_pos hforeign] at h
    cases h
  | false => exact (lookups_of_plain hforeign).2 x h

end Grid

end Spreadsheet
