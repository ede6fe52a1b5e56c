import Spreadsheet.Proofs.Evaluation.Recursion

/-!
# The search computes the recursion

**Theorem (`evaluate_eq`).** Evaluating a body with tokens that may be trusted gives exactly the
value, or exactly the failure, that plain recursion gives without any tokens, and the tokens known
afterwards may be trusted again.

A token may be trusted if its reference resolves to it and the evaluated cell is not met on the way
back: nothing that the body leads to, and that leads to the token's reference, is led back to the
evaluated cell by it. Both ways in which tokens are kept fulfil this. Tokens found while the body
itself is evaluated were found along a path that starts with the evaluated cell. Tokens from other
cells may be used for the cell's own formula, because a cycle through the cell would be a cycle
through the token's reference (`trusted_of_sound`).

The proof is a simulation. The references that a frame has behind it resolve to known tokens, the
frame above stands for the next one, and the rest is pending (`OnTrack`). So a failure on top is
the failure of each frame below (`fails_below`), and a value on top is the token that the frame
below waits for.
-/

namespace Spreadsheet

open Grid

variable {g : Grid} {origin : Reference} {body : String} {tokens : Tokens}

/-! ## Tokens that may be trusted -/

/-- Every token is the one to which its reference resolves. -/
def SoundTokens (g : Grid) (tokens : Tokens) : Prop :=
  ∀ r t, tokens.get? r = some t → ∃ path, g.resolve path r = .ok t

/-- Tokens that may be used while a body is evaluated as if it were the formula of `origin`. -/
structure Trusted (g : Grid) (origin : Reference) (body : String) (tokens : Tokens) : Prop where
  sound : SoundTokens g tokens
  avoids : ∀ r t, tokens.get? r = some t →
    ∀ s ∈ Formula.references body, g.Reaches s r → ¬ g.Reaches r origin

theorem Tokens.isSome_get?_cons {tokens : Tokens} {r q : Reference} {token : String}
    (h : q = r ∨ (tokens.get? q).isSome = true) :
    (Tokens.get? ((r, token) :: tokens) q).isSome = true := by
  rw [Tokens.get?_cons]
  split
  · rfl
  · exact h.resolve_left ‹_›

theorem SoundTokens.nil (g : Grid) : SoundTokens g [] := nofun

theorem Trusted.nil (g : Grid) (origin : Reference) (body : String) : Trusted g origin body [] :=
  ⟨.nil g, nofun⟩

theorem SoundTokens.cons {path : List Reference} {r : Reference} {t : String}
    (h : SoundTokens g tokens) (hr : g.resolve path r = .ok t) :
    SoundTokens g ((r, t) :: tokens) := by
  intro s u hs
  rw [Tokens.get?_cons] at hs
  by_cases hsr : s = r
  · rw [if_pos hsr] at hs
    obtain rfl := Option.some.inj hs
    exact ⟨path, hsr ▸ hr⟩
  · rw [if_neg hsr] at hs
    exact h s u hs

/-- A token found along a path that starts with the evaluated cell may be trusted. -/
theorem Trusted.cons {path : List Reference} {r : Reference} {t : String}
    (h : Trusted g origin body tokens) (hr : g.resolve path r = .ok t) (ho : origin ∈ path) :
    Trusted g origin body ((r, t) :: tokens) := by
  refine ⟨h.sound.cons hr, fun s u hs => ?_⟩
  rw [Tokens.get?_cons] at hs
  by_cases hsr : s = r
  · intro _ _ _ hback
    exact not_mem_of_resolve hr (hsr ▸ hback) ho
  · rw [if_neg hsr] at hs
    exact h.avoids s u hs

/-- Sound tokens may be trusted while a cell's own formula is evaluated. -/
theorem trusted_of_sound {c : Cell} {formula : String} (h : SoundTokens g tokens)
    (hc : g.find? origin = some c) (hf : c.formula = some formula) :
    Trusted g origin (Formula.body formula) tokens := by
  refine ⟨h, fun r t hr s hs hsr hback => ?_⟩
  obtain ⟨path, hres⟩ := h r t hr
  have hread : g.Reads origin s := ⟨c, formula, hc, hf, hs⟩
  exact acyclic_of_resolve hres (.trans_right hback (.head' hread hsr))

/-! ## The invariant of the search -/

/-- The references from the outermost frame of a path to the innermost one, which comes first. -/
def chainOf (frames : List Frame) : List Reference := frames.reverse.map Frame.origin

theorem chainOf_cons (f : Frame) (below : List Frame) :
    chainOf (f :: below) = chainOf below ++ [f.origin] := by
  simp [chainOf]

theorem onPath_iff {frames : List Frame} {r : Reference} :
    onPath frames r = true ↔ r ∈ chainOf frames := by
  simp [onPath, chainOf]

/-- How far a frame has come: the references before those that it waits for and those that are
pending resolve to known tokens. -/
def Frame.Progress (g : Grid) (tokens : Tokens) (chain waiting : List Reference) (f : Frame) :
    Prop :=
  Formula.hasForeignChar f.body = false ∧
    ∃ done, Formula.references f.body = done ++ (waiting ++ f.pending) ∧
      ∀ r ∈ done, ∃ t, tokens.get? r = some t ∧ g.resolve chain r = .ok t

/-- The frames of a search for the value of a body as if it were the formula of `origin`. Each
frame but the outermost holds the formula of its cell, and the frame below waits for it. -/
inductive OnTrack (g : Grid) (origin : Reference) (body : String) (tokens : Tokens) :
    (waiting : List Reference) → List Frame → Prop
  | outermost {waiting : List Reference} {f : Frame} :
      f.origin = origin → f.body = body → f.Progress g tokens (chainOf [f]) waiting →
      OnTrack g origin body tokens waiting [f]
  | inner {waiting : List Reference} {f : Frame} {below : List Frame} {c : Cell}
      {formula : String} :
      OnTrack g origin body tokens [f.origin] below → f.origin ∉ chainOf below →
      g.find? f.origin = some c → c.formula = some formula → Formula.body formula = f.body →
      f.Progress g tokens (chainOf (f :: below)) waiting →
      OnTrack g origin body tokens waiting (f :: below)

namespace OnTrack

variable {waiting : List Reference} {f : Frame} {below : List Frame}

theorem progress (h : OnTrack g origin body tokens waiting (f :: below)) :
    f.Progress g tokens (chainOf (f :: below)) waiting := by
  cases h <;> assumption

/-- The innermost frame may come further as long as what it has behind it is known. -/
theorem replace {waiting' : List Reference} {f' : Frame}
    (h : OnTrack g origin body tokens waiting (f :: below)) (ho : f'.origin = f.origin)
    (hb : f'.body = f.body) (hp : f'.Progress g tokens (chainOf (f :: below)) waiting') :
    OnTrack g origin body tokens waiting' (f' :: below) := by
  have hchain : chainOf (f' :: below) = chainOf (f :: below) := by
    rw [chainOf_cons, chainOf_cons, ho]
  cases h with
  | outermost h₁ h₂ _ => exact .outermost (ho.trans h₁) (hb.trans h₂) (hchain ▸ hp)
  | inner h₁ h₂ h₃ h₄ h₅ _ =>
    exact .inner (ho ▸ h₁) (ho ▸ h₂) (ho ▸ h₃) h₄ (h₅.trans hb.symm) (hchain ▸ hp)

theorem origin_mem {frames : List Frame} (h : OnTrack g origin body tokens waiting frames) :
    origin ∈ chainOf frames := by
  induction h with
  | outermost ho => simp [chainOf, ho]
  | inner _ _ _ _ _ _ ih => exact chainOf_cons .. ▸ List.mem_append_left _ ih

/-- A sound token more changes nothing in what is known. -/
theorem cons {frames : List Frame} {path : List Reference} {r : Reference} {t : String}
    (h : OnTrack g origin body tokens waiting frames) (hr : g.resolve path r = .ok t) :
    OnTrack g origin body ((r, t) :: tokens) waiting frames := by
  have hprogress : ∀ {chain waiting : List Reference} {f : Frame},
      f.Progress g tokens chain waiting → f.Progress g ((r, t) :: tokens) chain waiting := by
    rintro chain waiting f ⟨hforeign, done, hrefs, hdone⟩
    refine ⟨hforeign, done, hrefs, fun s hs => ?_⟩
    obtain ⟨u, hget, hres⟩ := hdone s hs
    refine ⟨u, ?_, hres⟩
    rw [Tokens.get?_cons]
    by_cases hsr : s = r
    · rw [if_pos hsr, resolve_unique hr (hsr ▸ hres)]
    · rw [if_neg hsr, hget]
  induction h with
  | outermost ho hb hp => exact .outermost ho hb (hprogress hp)
  | inner _ hn hc hf hb hp ih => exact .inner ih hn hc hf hb (hprogress hp)

/-- Each cell on the path leads to what the innermost frame refers to: the evaluated cell by the
body, the others by their formulas. -/
theorem leads {frames : List Frame} (h : OnTrack g origin body tokens waiting frames) :
    ∀ f below, frames = f :: below → ∀ p ∈ chainOf frames, ∀ r ∈ Formula.references f.body,
      (p = origin ∧ ∃ s ∈ Formula.references body, g.Reaches s r) ∨
        Relation.TransGen g.Reads p r := by
  induction h with
  | outermost ho hb _ =>
    intro f below hl p hp r hr
    cases hl
    simp only [chainOf, List.reverse_singleton, List.map_cons, List.map_nil,
      List.mem_singleton] at hp
    exact .inl ⟨hp.trans ho, r, hb ▸ hr, .refl⟩
  | @inner _ q frames c formula hbelow _ hc hf hb _ ih =>
    intro f below hl p hp r hr
    cases hl
    have hread : g.Reads q.origin r := ⟨c, formula, hc, hf, by rwa [Formula.reads, hb]⟩
    rw [chainOf_cons] at hp
    rcases List.mem_append.1 hp with hp | hp
    · cases frames with
      | nil => cases hbelow
      | cons parent rest =>
        obtain ⟨-, done, hrefs, -⟩ := hbelow.progress
        have hmem : q.origin ∈ Formula.references parent.body := by simp [hrefs]
        rcases ih parent rest rfl p hp _ hmem with ⟨ho, s, hs, hreach⟩ | htrans
        · exact .inl ⟨ho, s, hs, hreach.tail hread⟩
        · exact .inr (htrans.tail hread)
    · rw [List.mem_singleton.1 hp]
      exact .inr (.single hread)

end OnTrack

/-- A reference with a trusted token resolves to it where the search stands. -/
theorem resolve_of_trusted {waiting : List Reference} {f : Frame} {below : List Frame}
    {r : Reference} {t : String} (h : OnTrack g origin body tokens waiting (f :: below))
    (ht : Trusted g origin body tokens) (hr : r ∈ Formula.references f.body)
    (hget : tokens.get? r = some t) : g.resolve (chainOf (f :: below)) r = .ok t := by
  obtain ⟨path, hres⟩ := ht.sound r t hget
  refine resolve_of_avoids hres fun p hreach hp => ?_
  rcases h.leads f below rfl p hp r hr with ⟨rfl, s, hs, hsr⟩ | htrans
  · exact ht.avoids r t hget s hs hsr hreach
  · exact acyclic_of_resolve hres (.trans_right hreach htrans)

/-! ## Failures and values of frames -/

/-- The value that plain recursion gives to a frame. -/
abbrev Frame.plainValue (g : Grid) (chain : List Reference) (f : Frame) :
    Except FormulaError Float :=
  Formula.valueBy (g.resolve chain) f.body

/-- A frame whose next reference fails fails. -/
theorem plainValue_error {chain waiting rest : List Reference} {f : Frame} {r : Reference}
    {e : FormulaError} (h : f.Progress g tokens chain waiting)
    (hnext : waiting ++ f.pending = r :: rest)
    (hr : g.resolve chain r = .error e) : f.plainValue g chain = .error e := by
  obtain ⟨hforeign, done, hrefs, hdone⟩ := h
  have hall : resolveAll (g.resolve chain) (Formula.references f.body) = .error e := by
    rw [hrefs, hnext]
    exact resolveAll_error (fun s hs => (hdone s hs).imp fun _ => And.right) hr
  simp only [Frame.plainValue, Formula.valueBy, hforeign, Bool.false_eq_true, if_false, hall]

/-- A frame with nothing left has the value that its tokens give it. -/
theorem plainValue_eq_value {chain : List Reference} {f : Frame}
    (h : f.Progress g tokens chain []) (hpending : f.pending = []) :
    f.plainValue g chain = f.value tokens := by
  obtain ⟨hforeign, done, hrefs, hdone⟩ := h
  rw [hpending, List.nil_append, List.append_nil] at hrefs
  exact valueBy_eq_value hforeign fun r hr => hdone r (hrefs ▸ hr)

/-- The cell of an inner frame resolves to the token of the frame's value. -/
theorem resolve_inner {waiting : List Reference} {f : Frame} {below : List Frame}
    (h : OnTrack g origin body tokens waiting (f :: below)) (hbelow : below ≠ []) :
    g.resolve (chainOf below) f.origin =
      (f.plainValue g (chainOf (f :: below))).map Number.token := by
  cases h with
  | outermost => exact absurd rfl hbelow
  | inner _ hn hc hf hb _ =>
    rw [resolve_of_formula hn hc hf, Frame.plainValue, chainOf_cons, hb]

/-- The failure of the innermost frame is the failure of the whole. -/
theorem fails_below {waiting : List Reference} {frames : List Frame} {e : FormulaError}
    (h : OnTrack g origin body tokens waiting frames) :
    ∀ f below, frames = f :: below → f.plainValue g (chainOf frames) = .error e →
      Formula.valueBy (g.resolve [origin]) body = .error e := by
  induction h with
  | outermost ho hb _ =>
    intro f below hl hfail
    cases hl
    rw [← hb, ← ho]
    exact hfail
  | @inner waiting q frames c formula hbelow hn hc hf hb hp ih =>
    intro f below hl hfail
    cases hl
    cases frames with
    | nil => cases hbelow
    | cons parent rest =>
      refine ih parent rest rfl (plainValue_error hbelow.progress (List.singleton_append ..) ?_)
      rw [resolve_inner (.inner hbelow hn hc hf hb hp) (by simp), hfail]
      rfl

/-! ## Steps -/

/-- All that a step can do, told by where the references resolve. -/
inductive Search.Finds (g : Grid) (s : Search) : Search ⊕ Except FormulaError Float → Prop
  /-- The innermost frame has no value. -/
  | failure {e : FormulaError} :
      s.top.pending = [] → s.top.value s.tokens = .error e → Finds g s (.inr (.error e))
  /-- The only frame has its value. -/
  | value {x : Float} :
      s.top.pending = [] → s.top.value s.tokens = .ok x → s.below = [] → Finds g s (.inr (.ok x))
  /-- The frame below gets the token that it waits for. -/
  | leave {x : Float} {parent : Frame} {below : List Frame} :
      s.top.pending = [] → s.top.value s.tokens = .ok x → s.below = parent :: below →
      Finds g s (.inl ⟨parent, below, (s.top.origin, Number.token x) :: s.tokens⟩)
  /-- The next reference does not resolve. -/
  | unresolved {r : Reference} {rest : List Reference} {e : FormulaError} :
      s.top.pending = r :: rest → g.resolve (chainOf (s.top :: s.below)) r = .error e →
      Finds g s (.inr (.error e))
  /-- The next reference has a token already. -/
  | known {r : Reference} {rest : List Reference} {token : String} :
      s.top.pending = r :: rest → s.tokens.get? r = some token →
      Finds g s (.inl (s.advance rest s.tokens))
  /-- The next reference is a formula, for which a frame is opened. -/
  | enter {r : Reference} {rest : List Reference} {c : Cell} {formula : String} :
      s.top.pending = r :: rest → r ∉ chainOf (s.top :: s.below) → g.find? r = some c →
      c.formula = some formula → Formula.hasForeignChar (Formula.body formula) = false →
      Finds g s (.inl (s.enter rest
        ⟨r, Formula.body formula, Formula.references (Formula.body formula)⟩))
  /-- The next reference is a literal. -/
  | literal {r : Reference} {rest : List Reference} {token : String} :
      s.top.pending = r :: rest → g.resolve (chainOf (s.top :: s.below)) r = .ok token →
      Finds g s (.inl (s.advance rest ((r, token) :: s.tokens)))

theorem Search.finds_step (g : Grid) (s : Search) : s.Finds g (s.step g) := by
  unfold Search.step
  split
  · rename_i hpending
    split
    · rename_i e he
      exact .failure hpending he
    · rename_i x hx
      split
      · rename_i hbelow
        exact .value hpending hx hbelow
      · rename_i parent below hbelow
        exact .leave hpending hx hbelow
  · rename_i r rest hpending
    split
    · rename_i hon
      exact .unresolved hpending (resolve_of_mem (onPath_iff.1 hon))
    · rename_i hon
      have hr : r ∉ chainOf (s.top :: s.below) := fun hr => hon (onPath_iff.2 hr)
      split
      · rename_i hc
        exact .unresolved hpending (resolve_of_find?_none hr hc)
      · rename_i c hc
        split
        · rename_i token hget
          exact .known hpending hget
        · split
          · rename_i formula hf
            cases hforeign : Formula.hasForeignChar (Formula.body formula) with
            | true =>
              simp only [Frame.ofBody, hforeign, if_true]
              refine .unresolved hpending ?_
              rw [resolve_of_formula hr hc hf, Formula.valueBy, if_pos hforeign]
              rfl
            | false =>
              simp only [Frame.ofBody, hforeign, Bool.false_eq_true, if_false]
              exact .enter hpending hr hc hf hforeign
          · rename_i hf
            have hres := resolve_of_literal hr hc hf
            split
            · rename_i hl
              exact .unresolved hpending (by rw [hres, hl])
            · rename_i token hl
              exact .literal hpending (by rw [hres, hl])

/-- What holds between two steps of a search. -/
structure Search.Inv (g : Grid) (origin : Reference) (body : String) (s : Search) : Prop where
  onTrack : OnTrack g origin body s.tokens [] (s.top :: s.below)
  trusted : Trusted g origin body s.tokens

namespace Search

variable {s t : Search}

/-- The next reference of the innermost frame is behind it, once it has a token. -/
theorem Inv.advance {r : Reference} {rest : List Reference} {tokens' : Tokens}
    {token : String} (hpending : s.top.pending = r :: rest)
    (htrack : OnTrack g origin body tokens' [] (s.top :: s.below))
    (htrusted : Trusted g origin body tokens') (hget : tokens'.get? r = some token)
    (hres : g.resolve (chainOf (s.top :: s.below)) r = .ok token) :
    (s.advance rest tokens').Inv g origin body := by
  refine ⟨htrack.replace rfl rfl ?_, htrusted⟩
  obtain ⟨hforeign, done, hrefs, hdone⟩ := htrack.progress
  refine ⟨hforeign, done ++ [r], ?_, fun q hq => ?_⟩
  · show Formula.references s.top.body = done ++ [r] ++ ([] ++ rest)
    rw [hrefs, hpending, List.append_assoc]
    rfl
  · rcases List.mem_append.1 hq with hq | hq
    · exact hdone q hq
    · rw [List.mem_singleton.1 hq]
      exact ⟨token, hget, hres⟩

/-- A frame is opened for the next reference, and the innermost frame waits for it. -/
theorem Inv.enter {r : Reference} {rest : List Reference} {c : Cell} {formula : String}
    (h : s.Inv g origin body) (hpending : s.top.pending = r :: rest)
    (hr : r ∉ chainOf (s.top :: s.below)) (hc : g.find? r = some c)
    (hf : c.formula = some formula)
    (hforeign : Formula.hasForeignChar (Formula.body formula) = false) :
    (s.enter rest ⟨r, Formula.body formula, Formula.references (Formula.body formula)⟩).Inv g
      origin body := by
  have hwait : OnTrack g origin body s.tokens [r] ({ s.top with pending := rest } :: s.below) := by
    obtain ⟨hclean, done, hrefs, hdone⟩ := h.onTrack.progress
    rw [hpending, List.nil_append] at hrefs
    exact h.onTrack.replace rfl rfl ⟨hclean, done, hrefs, hdone⟩
  have hnot : r ∉ chainOf ({ s.top with pending := rest } :: s.below) := by
    rw [chainOf_cons] at hr ⊢
    exact hr
  have htop : Frame.Progress g s.tokens
      (chainOf (⟨r, Formula.body formula, Formula.references (Formula.body formula)⟩ ::
        { s.top with pending := rest } :: s.below)) []
      ⟨r, Formula.body formula, Formula.references (Formula.body formula)⟩ := by
    refine ⟨hforeign, [], ?_, by simp⟩
    rw [List.nil_append, List.nil_append]
  exact ⟨.inner hwait hnot hc hf rfl htop, h.trusted⟩

/-- The innermost frame has its value, which is the token that the frame below waits for. -/
theorem Inv.leave {parent : Frame} {below : List Frame} {x : Float} (h : s.Inv g origin body)
    (hpending : s.top.pending = []) (hx : s.top.value s.tokens = .ok x)
    (hbelow : s.below = parent :: below) :
    Inv g origin body ⟨parent, below, (s.top.origin, Number.token x) :: s.tokens⟩ := by
  have hres : g.resolve (chainOf (parent :: below)) s.top.origin = .ok (Number.token x) := by
    rw [← hbelow, resolve_inner h.onTrack (by simp [hbelow]),
      plainValue_eq_value h.onTrack.progress hpending, hx]
    rfl
  have htrack := h.onTrack
  rw [hbelow] at htrack
  cases htrack with
  | inner hwait _ _ _ _ _ =>
    refine ⟨(hwait.cons hres).replace rfl rfl ?_, h.trusted.cons hres hwait.origin_mem⟩
    obtain ⟨hforeign, done, hrefs, hdone⟩ := (hwait.cons hres).progress
    refine ⟨hforeign, done ++ [s.top.origin], by simpa using hrefs, fun q hq => ?_⟩
    rcases List.mem_append.1 hq with hq | hq
    · exact hdone q hq
    · rw [List.mem_singleton.1 hq]
      exact ⟨_, by rw [Tokens.get?_cons, if_pos rfl], hres⟩

/-- A step that goes on keeps the invariant. -/
theorem Inv.step (h : s.Inv g origin body) (hstep : s.step g = .inl t) : t.Inv g origin body := by
  have hfinds := s.finds_step g
  rw [hstep] at hfinds
  cases hfinds with
  | leave hpending hx hbelow => exact h.leave hpending hx hbelow
  | @known r rest token hpending hget =>
    have hmem : r ∈ Formula.references s.top.body := by
      obtain ⟨-, done, hrefs, -⟩ := h.onTrack.progress
      simp [hrefs, hpending]
    exact .advance hpending h.onTrack h.trusted hget
      (resolve_of_trusted h.onTrack h.trusted hmem hget)
  | enter hpending hr hc hf hforeign => exact h.enter hpending hr hc hf hforeign
  | literal hpending hres =>
    exact .advance hpending (h.onTrack.cons hres) (h.trusted.cons hres h.onTrack.origin_mem)
      (by rw [Tokens.get?_cons, if_pos rfl]) hres

/-- A step that ends the search gives the result of plain recursion. -/
theorem Inv.result {result : Except FormulaError Float} (h : s.Inv g origin body)
    (hstep : s.step g = .inr result) :
    result = Formula.valueBy (g.resolve [origin]) body := by
  have hprogress := h.onTrack.progress
  have hfail : ∀ {e : FormulaError}, s.top.plainValue g (chainOf (s.top :: s.below)) = .error e →
      Except.error e = Formula.valueBy (g.resolve [origin]) body :=
    fun he => (fails_below h.onTrack _ _ rfl he).symm
  have hfinds := s.finds_step g
  rw [hstep] at hfinds
  cases hfinds with
  | failure hpending he => exact hfail ((plainValue_eq_value hprogress hpending).trans he)
  | value hpending hx hbelow =>
    have hvalue := plainValue_eq_value hprogress hpending
    have htrack := h.onTrack
    rw [hbelow] at htrack hvalue
    cases htrack with
    | outermost ho hb _ =>
      rw [← hb, ← ho, ← hx, ← hvalue]
      rfl
    | inner hwait => cases hwait
  | unresolved hpending hres =>
    exact hfail (plainValue_error hprogress (by rw [hpending]; rfl) hres)

theorem run_of_step_inl (h : s.step g = .inl t) : s.run g = t.run g := by
  rw [Search.run]
  split
  · rename_i u hu
    rw [h] at hu
    cases hu
    rfl
  · rename_i hu
    rw [h] at hu
    cases hu

theorem run_of_step_inr {result : Except FormulaError Float} (h : s.step g = .inr result) :
    s.run g = (result, s.tokens) := by
  rw [Search.run]
  split
  · rename_i hu
    rw [h] at hu
    cases hu
  · rename_i result' hu
    rw [h] at hu
    cases hu
    rfl

/-- A whole search gives the result of plain recursion and leaves tokens that may be trusted. -/
theorem run_eq (h : s.Inv g origin body) :
    (s.run g).1 = Formula.valueBy (g.resolve [origin]) body ∧
      Trusted g origin body (s.run g).2 := by
  induction s using Search.run.induct (g := g) with
  | case1 s t hstep ih =>
    rw [run_of_step_inl hstep]
    exact ih (h.step hstep)
  | case2 s result hstep =>
    rw [run_of_step_inr hstep]
    exact ⟨h.result hstep, h.trusted⟩

end Search

/-! ## Evaluation -/

namespace Grid

/-- The value of a body as if it were the formula of `origin`, by plain recursion. -/
def plainValue (g : Grid) (body : String) (origin : Reference) : Except FormulaError Float :=
  Formula.valueBy (g.resolve [origin]) body

/-- The tokens known after an evaluation, given those that the search found. -/
def withResult (origin : Reference) (known : Tokens) : Except FormulaError Float → Tokens
  | .ok x => (origin, Number.token x) :: known
  | .error _ => known

/-- **Evaluation is plain recursion.** What is known from tokens that may be trusted changes
neither a value nor a failure. -/
theorem evaluate_eq (h : Trusted g origin body tokens) :
    ∃ known, Trusted g origin body known ∧
      g.evaluate body origin tokens =
        (g.plainValue body origin, withResult origin known (g.plainValue body origin)) := by
  by_cases hforeign : Formula.hasForeignChar body = true
  · refine ⟨tokens, h, ?_⟩
    simp only [evaluate, Frame.ofBody, plainValue, Formula.valueBy, hforeign, if_true, withResult]
  · have hinv : Search.Inv g origin body ⟨⟨origin, body, Formula.references body⟩, [], tokens⟩ :=
      ⟨.outermost rfl rfl ⟨by simpa using hforeign, [], rfl, by simp⟩, h⟩
    obtain ⟨hresult, htrusted⟩ := Search.run_eq hinv
    refine ⟨_, htrusted, ?_⟩
    rw [plainValue, ← hresult]
    simp only [evaluate, Frame.ofBody, if_neg hforeign]
    generalize Search.run g ⟨⟨origin, body, Formula.references body⟩, [], tokens⟩ = found
    obtain ⟨_ | x, known⟩ := found <;> rfl

/-- With no tokens at all, evaluation is plain recursion for every body and every cell. -/
theorem evaluate_nil (g : Grid) (body : String) (origin : Reference) :
    (g.evaluate body origin []).1 = g.plainValue body origin := by
  obtain ⟨known, -, heq⟩ := evaluate_eq (.nil g origin body)
  rw [heq]

/-- **Sound tokens do not show.** The formula of a cell has the result that it has without any
tokens, and the tokens known then are sound. -/
theorem evaluateFormula_sound {c : Cell} {formula : String} (h : SoundTokens g tokens)
    (hc : g.find? origin = some c) (hf : c.formula = some formula) :
    (g.evaluateFormula formula origin tokens).1 = (g.evaluateFormula formula origin []).1 ∧
      SoundTokens g (g.evaluateFormula formula origin tokens).2 := by
  obtain ⟨known, hknown, heq⟩ := evaluate_eq (trusted_of_sound h hc hf)
  rw [evaluateFormula, evaluateFormula, evaluate_nil, heq]
  dsimp only
  refine ⟨rfl, ?_⟩
  cases hv : g.plainValue (Formula.body formula) origin with
  | error e => exact hknown.sound
  | ok x =>
    have hres : g.resolve [] origin = .ok (Number.token x) := by
      rw [resolve_of_formula List.not_mem_nil hc hf, List.nil_append]
      exact congrArg (Except.map Number.token) hv
    exact hknown.sound.cons hres

end Grid

end Spreadsheet
