import Spreadsheet.Proofs.Evaluation.Search
import Spreadsheet.Proofs.Number.Range

/-!
# Evaluation lacks nothing

Two parts of an evaluation could be without an answer. A body is computed from the tokens of its
references, each of which has to be known by then. And the number is rounded and shown in
hundredths, which an infinity does not have.

**Theorem (`firstLack?_eq_none`).** Neither happens, whatever the cells hold, whatever the body is,
and whatever tokens are given. So all that can become of an evaluation is a finite number
(`isFinite_of_run`) or one of the failures that are told to the user.

A frame holds no reference back but those that are pending, those that are known, and the one for
which the frame above was opened (`Frame.Provided`). Each step keeps this (`Provided.step`), and with
nothing pending on the innermost frame it says that all references are known.
-/

namespace Spreadsheet

/-! ## Numbers are finite -/

theorem Arithmetic.isFinite_of_evaluate {expression : String} {x : Float}
    (h : Arithmetic.evaluate expression = .ok x) : Number.isFinite x = true := by
  unfold Arithmetic.evaluate at h
  split at h
  · cases h
  · split at h
    · rename_i hfinite
      cases h
      exact hfinite
    · cases h

variable {g : Grid} {tokens : Tokens} {r : Reference} {x : Float}

theorem Frame.isFinite_of_value {f : Frame} (h : f.value tokens = .ok x) :
    Number.isFinite x = true := by
  unfold Frame.value at h
  split at h
  · rename_i y hy
    cases h
    exact Number.isFinite_round (Arithmetic.isFinite_of_evaluate hy)
  · cases h

/-- **The result of a search is finite.** -/
theorem Search.isFinite_of_run {s : Search} (h : (s.run g).1 = .ok x) :
    Number.isFinite x = true := by
  induction s using Search.run.induct (g := g) with
  | case1 s t hstep ih =>
    rw [run_of_step_inl hstep] at h
    exact ih h
  | case2 s result hstep =>
    rw [run_of_step_inr hstep] at h
    obtain rfl : result = .ok x := h
    have hfinds := s.finds_step g
    rw [hstep] at hfinds
    cases hfinds with
    | value _ hvalue _ => exact Frame.isFinite_of_value hvalue

theorem Grid.isFinite_of_evaluateFormula {formula : String} {origin : Reference}
    (h : (g.evaluateFormula formula origin tokens).1 = .ok x) : Number.isFinite x = true := by
  unfold evaluateFormula evaluate at h
  split at h
  · cases h
  · rename_i frame _
    have hrun := Search.isFinite_of_run (g := g) (s := ⟨frame, [], tokens⟩) (x := x)
    generalize Search.run g ⟨frame, [], tokens⟩ = ran at h hrun
    obtain ⟨result, known⟩ := ran
    cases result with
    | ok y => exact hrun h
    | error e => cases h

/-- A finite number has hundredths. -/
theorem Number.displayAndRound?_of_isFinite (h : Number.isFinite x = true) :
    Number.displayAndRound? x = some (Number.display x, Number.round x) := by
  unfold isFinite at h
  split at h
  · rename_i negative units hread
    rw [displayAndRound?, hread]
  · cases h

/-! ## What could be lacking -/

/-- What a calculation cannot do without. -/
inductive Lack where
  /-- The token of a reference, to compute a body. -/
  | token (r : Reference)
  /-- The hundredths of a number, to round and to show it. -/
  | hundredths (x : Float)
  /-- The cell at an address, to calculate a dependent. -/
  | cell (a : Address)

/-- What is lacking where a number is rounded, and the rounded number is shown. -/
def Number.lack? (x : Float) : Option Lack :=
  if (displayAndRound? x).isNone then some (.hundredths x)
  else if (displayAndRound? (round x)).isNone then some (.hundredths (round x))
  else none

/-- A finite number is rounded and shown, also once it is rounded. -/
theorem Number.lack?_of_isFinite (h : Number.isFinite x = true) : Number.lack? x = none := by
  rw [lack?, displayAndRound?_of_isFinite h, displayAndRound?_of_isFinite (isFinite_round h)]
  rfl

/-- What is lacking to compute a body from tokens. -/
def Frame.lack? (f : Frame) (tokens : Tokens) : Option Lack :=
  match Formula.substitute? tokens.get? f.body with
  | .error r => some (.token r)
  | .ok expression =>
    match Arithmetic.evaluate expression with
    | .error _ => none
    | .ok x => Number.lack? x

namespace Search

/-- What is lacking for the next step. -/
def lack? (s : Search) : Option Lack :=
  match s.top.pending with
  | [] => s.top.lack? s.tokens
  | _ :: _ => none

/-- The first thing that is lacking on the way of a search. -/
def firstLack? (g : Grid) (s : Search) : Option Lack :=
  match s.lack? with
  | some lack => some lack
  | none =>
    match _h : s.step g with
    | .inl next => firstLack? g next
    | .inr _ => none
  termination_by s.measure g
  decreasing_by exact measure_step _h

end Search

/-! ## What is provided for -/

/-- Each reference of a frame is pending or known, or the frame above was opened for it. -/
def Frame.Provided (tokens : Tokens) (above : Option Reference) (f : Frame) : Prop :=
  ∀ r ∈ Formula.references f.body,
    r ∈ f.pending ∨ (tokens.get? r).isSome = true ∨ above = some r

/-- Each frame of a path is provided for. -/
def PathProvided (tokens : Tokens) : (above : Option Reference) → List Frame → Prop
  | _, [] => True
  | above, f :: below => f.Provided tokens above ∧ PathProvided tokens (some f.origin) below

/-- Before the first step of a frame all references are pending. -/
theorem Frame.Provided.fresh (tokens : Tokens) (above : Option Reference) (origin : Reference)
    (body : String) : Frame.Provided tokens above ⟨origin, body, Formula.references body⟩ :=
  fun _ hr => .inl hr

theorem Frame.Provided.mono {known : Tokens} {above : Option Reference} {f : Frame}
    (h : f.Provided tokens above)
    (hknown : ∀ r, (tokens.get? r).isSome = true → (known.get? r).isSome = true) :
    f.Provided known above :=
  fun r hr => (h r hr).imp_right (Or.imp_left (hknown r))

theorem PathProvided.mono {known : Tokens} {above : Option Reference} {path : List Frame}
    (h : PathProvided tokens above path)
    (hknown : ∀ r, (tokens.get? r).isSome = true → (known.get? r).isSome = true) :
    PathProvided known above path := by
  induction path generalizing above with
  | nil => trivial
  | cons f below ih => exact ⟨h.1.mono hknown, ih h.2⟩

namespace Search

variable {s t : Search}

/-- All frames of a search are provided for. -/
def Provided (s : Search) : Prop := PathProvided s.tokens none (s.top :: s.below)

theorem provided_start {origin : Reference} {body : String} {frame : Frame}
    (h : Frame.ofBody origin body = .ok frame) (tokens : Tokens) :
    Provided ⟨frame, [], tokens⟩ := by
  unfold Frame.ofBody at h
  split at h
  · cases h
  · cases h
    exact ⟨.fresh tokens none origin body, trivial⟩

/-- **The step lemma.** -/
theorem Provided.step (h : s.Provided) (hstep : s.step g = .inl t) : t.Provided := by
  obtain ⟨htop, hbelow⟩ := h
  have hfinds := s.finds_step g
  rw [hstep] at hfinds
  cases hfinds with
  | leave _ _ hparent =>
    -- The reference for which the frame was opened becomes known.
    rw [hparent] at hbelow
    obtain ⟨hwaits, hrest⟩ := hbelow
    refine ⟨fun r hr => ?_, hrest.mono fun q hq => Tokens.isSome_get?_cons (.inr hq)⟩
    rcases hwaits r hr with hpending | hknown | habove
    · exact .inl hpending
    · exact .inr (.inl (Tokens.isSome_get?_cons (.inr hknown)))
    · refine .inr (.inl ?_)
      rw [Tokens.get?_cons, if_pos (Option.some.inj habove).symm]
      rfl
  | @known r rest token hpending hget =>
    refine ⟨fun q hq => ?_, hbelow⟩
    rcases htop q hq with hq | hq | hq
    · rw [hpending] at hq
      rcases List.mem_cons.1 hq with rfl | hq
      · exact .inr (.inl (Option.isSome_of_eq_some hget))
      · exact .inl hq
    · exact .inr (.inl hq)
    · cases hq
  | @enter r rest c formula hpending =>
    refine ⟨.fresh s.tokens none r _, fun q hq => ?_, hbelow⟩
    rcases htop q hq with hq | hq | hq
    · rw [hpending] at hq
      rcases List.mem_cons.1 hq with rfl | hq
      · exact .inr (.inr rfl)
      · exact .inl hq
    · exact .inr (.inl hq)
    · cases hq
  | @literal r rest token hpending =>
    refine ⟨fun q hq => ?_, hbelow.mono fun q hq => Tokens.isSome_get?_cons (.inr hq)⟩
    rcases htop q hq with hq | hq | hq
    · rw [hpending] at hq
      rcases List.mem_cons.1 hq with rfl | hq
      · refine .inr (.inl ?_)
        rw [advance, Tokens.get?_cons, if_pos rfl]
        rfl
      · exact .inl hq
    · exact .inr (.inl (Tokens.isSome_get?_cons (.inr hq)))
    · cases hq

/-- What is provided for lacks nothing. -/
theorem Provided.lack?_eq_none (h : s.Provided) : s.lack? = none := by
  unfold lack?
  split
  · rename_i hpending
    have hknown : ∀ r ∈ Formula.references s.top.body, (s.tokens.get? r).isSome = true := by
      intro r hr
      rcases h.1 r hr with hr | hr | hr
      · rw [hpending] at hr
        cases hr
      · exact hr
      · cases hr
    have hsubstitute : Formula.substitute? s.tokens.get? s.top.body =
        .ok (Formula.substitute s.tokens.text s.top.body) := by
      have hfind : ((Formula.references s.top.body).find? fun r => (s.tokens.get? r).isNone) =
          none := by
        refine List.find?_eq_none.2 fun r hr hnone => ?_
        have hsome := hknown r hr
        rw [Option.isNone_iff_eq_none] at hnone
        rw [hnone] at hsome
        cases hsome
      rw [Formula.substitute?, hfind]
      rfl
    rw [Frame.lack?, hsubstitute]
    dsimp only
    split
    · rfl
    · rename_i x hx
      exact Number.lack?_of_isFinite (Arithmetic.isFinite_of_evaluate hx)
  · rfl

theorem firstLack?_of_inl (hlack : s.lack? = none) (hstep : s.step g = .inl t) :
    s.firstLack? g = t.firstLack? g := by
  rw [firstLack?, hlack]
  dsimp only
  split
  · rename_i u hu
    rw [hstep] at hu
    cases hu
    rfl
  · rename_i hu
    rw [hstep] at hu
    cases hu

theorem firstLack?_of_inr {result : Except FormulaError Float} (hlack : s.lack? = none)
    (hstep : s.step g = .inr result) : s.firstLack? g = none := by
  rw [firstLack?, hlack]
  dsimp only
  split
  · rename_i u hu
    rw [hstep] at hu
    cases hu
  · rfl

/-- **The run lemma.** -/
theorem Provided.firstLack?_eq_none (h : s.Provided) : s.firstLack? g = none := by
  induction s using Search.run.induct (g := g) with
  | case1 s t hstep ih =>
    rw [firstLack?_of_inl h.lack?_eq_none hstep]
    exact ih (h.step hstep)
  | case2 s result hstep => exact firstLack?_of_inr h.lack?_eq_none hstep

end Search

end Spreadsheet
