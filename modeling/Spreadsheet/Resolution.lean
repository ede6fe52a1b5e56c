import Spreadsheet.Arithmetic
import Spreadsheet.Descent
import Spreadsheet.Grid
import Spreadsheet.Literal

/-!
# Resolution of references

A formula is evaluated from the formulas of the cells it reads, never from what those cells show.
References are resolved depth first along a path that starts with the evaluated cell: a reference
to a cell on the path closes a cycle. A cell that has a token is not resolved again, so an input
of two branches is neither computed twice nor taken for a cycle.

The search ends because a formula is opened only for a cell of the grid that is neither on the
path nor known, and a cell that leaves the path is known.
-/

namespace Spreadsheet

/-! ## Known tokens -/

/-- Tokens of arithmetic for references, the newest first. -/
abbrev Tokens := List (Reference × String)

namespace Tokens

/-- The token of a reference. -/
def get? (tokens : Tokens) (r : Reference) : Option String := tokens.lookup r

/-- The token of a reference, or no text without one. -/
def text (tokens : Tokens) (r : Reference) : String := (tokens.get? r).getD ""

/-- Each reference with its token, once. -/
def toPairs : Tokens → List (Reference × String)
  | [] => []
  | (r, t) :: rest => (r, t) :: (toPairs rest).filter fun p => p.1 != r

end Tokens

/-! ## The path -/

/-- A formula on the path. -/
structure Frame where
  origin : Reference
  body : String
  /-- The references that are not resolved yet. -/
  pending : List Reference

namespace Frame

/-- The frame of a body without foreign characters. -/
def ofBody (origin : Reference) (body : String) : Except FormulaError Frame :=
  if Formula.hasForeignChar body then .error (.evaluation .incomplete)
  else .ok ⟨origin, body, Formula.references body⟩

/-- The rounded value of the body, once its references have tokens. -/
def value (f : Frame) (tokens : Tokens) : Except FormulaError Float :=
  match Arithmetic.evaluate (Formula.substitute tokens.text f.body) with
  | .ok x => .ok (Number.round x)
  | .error e => .error (.evaluation e)

end Frame

/-- Whether a reference is on a path. -/
def onPath (path : List Frame) (r : Reference) : Bool := path.any fun f => f.origin == r

/-! ## Why the search ends -/

/-- The cells of a grid that are neither on the path nor known. -/
def openCells (g : Grid) (path : List Frame) (tokens : Tokens) : List Reference :=
  (g.addresses.map Reference.cell).filter fun r => !onPath path r && (tokens.get? r).isNone

/-- The frames and pending references on a path. -/
def workOn (path : List Frame) : Nat := total (fun f => f.pending.length + 1) path

theorem onPath_cons {f : Frame} {path : List Frame} {r : Reference} :
    onPath (f :: path) r = (f.origin == r || onPath path r) := rfl

theorem Tokens.get?_cons {r s : Reference} {t : String} {tokens : Tokens} :
    Tokens.get? ((r, t) :: tokens) s = if s = r then some t else tokens.get? s := by
  simp only [Tokens.get?, List.lookup_cons]
  by_cases h : s = r
  · simp [h]
  · simp [h, beq_false_of_ne h]

/-- A token more, or a frame that became known, leaves no more cells open. -/
theorem openCells_known_le (g : Grid) (f : Frame) (path : List Frame) (r : Reference) (t : String)
    (tokens : Tokens) (h : f.origin = r) :
    (openCells g path ((r, t) :: tokens)).length ≤ (openCells g (f :: path) tokens).length := by
  refine length_filter_le_of_imp fun x _ hx => ?_
  simp only [onPath_cons, Tokens.get?_cons, Bool.and_eq_true, Bool.not_eq_true', Bool.or_eq_false_iff,
    beq_eq_false_iff_ne] at hx ⊢
  obtain ⟨h₁, h₂⟩ := hx
  split at h₂
  · simp at h₂
  · rename_i hne
    exact ⟨⟨fun e => hne (e.symm.trans h), h₁⟩, h₂⟩

theorem openCells_token_le (g : Grid) (path : List Frame) (r : Reference) (t : String)
    (tokens : Tokens) :
    (openCells g path ((r, t) :: tokens)).length ≤ (openCells g path tokens).length := by
  refine length_filter_le_of_imp fun x _ hx => ?_
  simp only [Tokens.get?_cons, Bool.and_eq_true] at hx ⊢
  obtain ⟨h₁, h₂⟩ := hx
  refine ⟨h₁, ?_⟩
  split at h₂
  · simp at h₂
  · exact h₂

/-- Opening a cell that was open leaves fewer open. -/
theorem openCells_push_lt {g : Grid} {f : Frame} {path path' : List Frame} {tokens : Tokens}
    (hpath : ∀ r, onPath path' r = onPath path r) (hcell : (g.find? f.origin).isSome)
    (hnew : onPath path f.origin = false) (hknown : tokens.get? f.origin = none) :
    (openCells g (f :: path') tokens).length < (openCells g path tokens).length := by
  have hmem : f.origin ∈ g.addresses.map Reference.cell := by
    cases h : f.origin with
    | cell a =>
      rw [h] at hcell
      obtain ⟨c, hc⟩ := Option.isSome_iff_exists.1 hcell
      exact List.mem_map_of_mem (Grid.mem_addresses.2 (Grid.contains_of_get? hc))
    | unknown t => rw [h] at hcell; simp [Grid.find?] at hcell
  refine length_filter_lt_of_imp hmem ?_ ?_ fun x _ hx => ?_
  · simp [hnew, hknown]
  · simp [onPath_cons]
  · simp only [onPath_cons, hpath, Bool.and_eq_true, Bool.not_eq_true', Bool.or_eq_false_iff] at hx ⊢
    exact ⟨hx.1.2, hx.2⟩

theorem origin_of_ofBody {origin : Reference} {body : String} {f : Frame}
    (h : Frame.ofBody origin body = .ok f) : f.origin = origin := by
  unfold Frame.ofBody at h
  split at h
  · simp at h
  · cases h; rfl

/-! ## The search -/

/-- A path, its innermost frame apart, and the tokens known so far. -/
structure Search where
  top : Frame
  below : List Frame
  tokens : Tokens

namespace Search

/-- The references from the evaluated cell to the innermost one. -/
def chain (s : Search) : List Reference := (s.top :: s.below).reverse.map Frame.origin

/-- The search after the next pending reference was found to have a token. -/
def advance (s : Search) (rest : List Reference) (tokens : Tokens) : Search :=
  ⟨{ s.top with pending := rest }, s.below, tokens⟩

/-- The search after a frame was opened for the next pending reference. -/
def enter (s : Search) (rest : List Reference) (frame : Frame) : Search :=
  ⟨frame, { s.top with pending := rest } :: s.below, s.tokens⟩

/-- One step: looks at the next pending reference of the innermost frame, or computes the frame. -/
def step (g : Grid) (s : Search) : Search ⊕ Except FormulaError Float :=
  match s.top.pending with
  | [] =>
    match s.top.value s.tokens with
    | .error e => .inr (.error e)
    | .ok x =>
      match s.below with
      | [] => .inr (.ok x)
      | parent :: below => .inl ⟨parent, below, (s.top.origin, Number.token x) :: s.tokens⟩
  | r :: rest =>
    if onPath (s.top :: s.below) r then .inr (.error (.circular s.chain r))
    else
      match g.find? r with
      | none => .inr (.error (.unknownReference r))
      | some c =>
        match s.tokens.get? r with
        | some _ => .inl (s.advance rest s.tokens)
        | none =>
          match c.formula with
          | some formula =>
            match Frame.ofBody r (Formula.body formula) with
            | .error e => .inr (.error e)
            | .ok frame => .inl (s.enter rest frame)
          | none =>
            match Literal.token? c.value with
            | none => .inr (.error (.evaluation (.notANumber r)))
            | some t => .inl (s.advance rest ((r, t) :: s.tokens))

/-- What gets smaller with each step: the open cells, and then the work left on the path. -/
def measure (g : Grid) (s : Search) : Nat × Nat :=
  ((openCells g (s.top :: s.below) s.tokens).length, workOn (s.top :: s.below))

theorem measure_step {g : Grid} {s t : Search} (h : s.step g = .inl t) :
    Prod.Lex (· < ·) (· < ·) (t.measure g) (s.measure g) := by
  unfold step at h
  split at h
  · rename_i hp
    split at h
    · simp at h
    · rename_i x hx
      split at h
      · simp at h
      · rename_i parent below hb
        cases h
        simp only [measure, hb]
        exact lex_of_le (openCells_known_le g s.top (parent :: below) _ _ _ rfl)
          (by simp [workOn, hp])
  · rename_i r rest hp
    split at h
    · simp at h
    · rename_i hon
      split at h
      · simp at h
      · rename_i c hc
        split at h
        · cases h
          exact lex_of_le (Nat.le_refl _) (by simp [workOn, advance, hp])
        · rename_i ht
          split at h
          · split at h
            · simp at h
            · rename_i frame ho
              cases h
              have hor := origin_of_ofBody ho
              subst hor
              exact Prod.Lex.left _ _ (openCells_push_lt (fun _ => rfl) (by simp [enter, hc])
                (by simpa [enter] using hon) ht)
          · split at h
            · simp at h
            · cases h
              exact lex_of_le (openCells_token_le g (s.top :: s.below) _ _ _)
                (by simp [workOn, advance, hp])

/-- Steps until the outermost frame has a value or the search fails, with the tokens known then. -/
def run (g : Grid) (s : Search) : Except FormulaError Float × Tokens :=
  match _h : s.step g with
  | .inl next => run g next
  | .inr result => (result, s.tokens)
  termination_by s.measure g
  decreasing_by exact measure_step _h

end Search

namespace Grid

/-- The value of a body as if it were the formula of the cell `origin`, with all tokens that became
known. The tokens given may come from evaluations on the same grid. -/
def evaluate (g : Grid) (body : String) (origin : Reference) (tokens : Tokens) :
    Except FormulaError Float × Tokens :=
  match Frame.ofBody origin body with
  | .error e => (.error e, tokens)
  | .ok frame =>
    match Search.run g ⟨frame, [], tokens⟩ with
    | (.ok x, known) => (.ok x, (origin, Number.token x) :: known)
    | (.error e, known) => (.error e, known)

/-- The value of a formula, with its equals sign, as if it were that of the cell `origin`. -/
def evaluateFormula (g : Grid) (formula : String) (origin : Reference) (tokens : Tokens) :
    Except FormulaError Float × Tokens :=
  g.evaluate (Formula.body formula) origin tokens

end Grid

end Spreadsheet
