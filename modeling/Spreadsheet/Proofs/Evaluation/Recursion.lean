import Mathlib.Logic.Relation
import Spreadsheet.Dependency
import Spreadsheet.Resolution

/-!
# Resolution as plain recursion

The search of a formula keeps a path, a place on each frame and the tokens that it knows. Here
the same is said without any of it: a reference is resolved by resolving, in order, the
references of its formula, along a path that only grows. Nothing is remembered.

**Main facts.** A reference that resolves along some path

* reaches nothing on that path (`not_mem_of_resolve`), so it lies on no cycle
  (`acyclic_of_resolve`);
* resolves to the same token along every path that it does not reach (`resolve_of_avoids`), so
  all paths that give it a token give it the same one (`resolve_unique`).

These are what makes it safe to keep a token.
-/

namespace Spreadsheet

/-! ## Resolving in order -/

/-- Resolves references in order. The first failure is the failure of all. -/
def resolveAll (resolve : Reference → Except FormulaError String) :
    List Reference → Except FormulaError Tokens
  | [] => .ok []
  | r :: rest =>
    match resolve r with
    | .error e => .error e
    | .ok t => (resolveAll resolve rest).map fun tokens => (r, t) :: tokens

/-- The value of a body: its references are resolved in the order of their first occurrence, their
tokens are put in their places, and the result of the arithmetic is rounded. -/
def Formula.valueBy (resolve : Reference → Except FormulaError String) (body : String) :
    Except FormulaError Float :=
  if hasForeignChar body then .error (.evaluation .incomplete)
  else
    match resolveAll resolve (references body) with
    | .error e => .error e
    | .ok tokens =>
      match Arithmetic.evaluate (substitute tokens.text body) with
      | .ok x => .ok (Number.round x)
      | .error e => .error (.evaluation e)

theorem resolveAll_congr {f g : Reference → Except FormulaError String} {rs : List Reference}
    (h : ∀ r ∈ rs, f r = g r) : resolveAll f rs = resolveAll g rs := by
  induction rs with
  | nil => rfl
  | cons r rs ih =>
    simp only [resolveAll, h r List.mem_cons_self, ih fun s hs => h s (List.mem_cons_of_mem _ hs)]

theorem resolveAll_cons_ok {f : Reference → Except FormulaError String} {r : Reference}
    {t : String} (h : f r = .ok t) (rs : List Reference) :
    resolveAll f (r :: rs) = (resolveAll f rs).map fun tokens => (r, t) :: tokens := by
  simp only [resolveAll, h]

/-- References that resolve one by one resolve together, each to its own token. -/
theorem resolveAll_eq_ok {f : Reference → Except FormulaError String} {rs : List Reference}
    (h : ∀ r ∈ rs, ∃ t, f r = .ok t) :
    ∃ tokens, resolveAll f rs = .ok tokens ∧ ∀ r ∈ rs, f r = .ok (tokens.text r) := by
  induction rs with
  | nil => exact ⟨[], rfl, by simp⟩
  | cons r rs ih =>
    obtain ⟨t, ht⟩ := h r List.mem_cons_self
    obtain ⟨tokens, hall, htext⟩ := ih fun s hs => h s (List.mem_cons_of_mem _ hs)
    refine ⟨(r, t) :: tokens, by rw [resolveAll_cons_ok ht, hall]; rfl, fun s hs => ?_⟩
    by_cases hsr : s = r
    · rw [hsr, ht]
      simp [Tokens.text, Tokens.get?_cons]
    · have hs' : s ∈ rs := (List.mem_cons.1 hs).resolve_left hsr
      rw [htext s hs']
      simp [Tokens.text, Tokens.get?_cons, hsr]

/-- References resolve together only if each of them does. -/
theorem exists_of_resolveAll {f : Reference → Except FormulaError String} {rs : List Reference}
    {tokens : Tokens} (h : resolveAll f rs = .ok tokens) : ∀ r ∈ rs, ∃ t, f r = .ok t := by
  induction rs generalizing tokens with
  | nil => simp
  | cons r rs ih =>
    cases hr : f r with
    | error e => simp [resolveAll, hr] at h
    | ok t =>
      rw [resolveAll_cons_ok hr] at h
      cases hrs : resolveAll f rs with
      | error e => simp [hrs, Except.map] at h
      | ok rest =>
        intro s hs
        rcases List.mem_cons.1 hs with rfl | hs
        · exact ⟨t, hr⟩
        · exact ih hrs s hs

/-- The first reference that fails decides. -/
theorem resolveAll_error {f : Reference → Except FormulaError String} {done rest : List Reference}
    {r : Reference} {e : FormulaError} (hdone : ∀ s ∈ done, ∃ t, f s = .ok t)
    (hr : f r = .error e) : resolveAll f (done ++ r :: rest) = .error e := by
  induction done with
  | nil => simp [resolveAll, hr]
  | cons s done ih =>
    obtain ⟨t, ht⟩ := hdone s List.mem_cons_self
    rw [List.cons_append, resolveAll_cons_ok ht,
      ih fun u hu => hdone u (List.mem_cons_of_mem _ hu)]
    rfl

/-! ## Substituting equal tokens -/

theorem substitute_congr {f g : Reference → String} {body : String}
    (h : ∀ r ∈ Formula.references body, f r = g r) :
    Formula.substitute f body = Formula.substitute g body := by
  have hpiece : ∀ p ∈ Formula.pieces body.toList, p.substitute f = p.substitute g := by
    intro p hp
    cases p with
    | other text => rfl
    | reference token =>
      have hmem : Reference.ofText (String.ofList token) ∈ Formula.references body :=
        List.mem_eraseDups.2 (List.mem_filterMap.2 ⟨_, hp, rfl⟩)
      show (f _).toList = (g _).toList
      rw [h _ hmem]
  unfold Formula.substitute
  rw [List.flatMap_def, List.flatMap_def, List.map_congr_left hpiece]

theorem valueBy_congr {f g : Reference → Except FormulaError String} {body : String}
    (h : ∀ r ∈ Formula.references body, f r = g r) :
    Formula.valueBy f body = Formula.valueBy g body := by
  unfold Formula.valueBy
  rw [resolveAll_congr h]

/-- A body has a value only if all of its references resolve. -/
theorem exists_of_valueBy {f : Reference → Except FormulaError String} {body : String} {x : Float}
    (h : Formula.valueBy f body = .ok x) : ∀ r ∈ Formula.references body, ∃ t, f r = .ok t := by
  unfold Formula.valueBy at h
  split at h
  · simp at h
  · split at h
    · simp at h
    · rename_i tokens htokens
      exact exists_of_resolveAll htokens

/-- A body whose references resolve to known tokens has the value that these tokens give it. -/
theorem valueBy_eq_value {resolve : Reference → Except FormulaError String} {f : Frame}
    {tokens : Tokens} (hforeign : Formula.hasForeignChar f.body = false)
    (h : ∀ r ∈ Formula.references f.body, ∃ t, tokens.get? r = some t ∧ resolve r = .ok t) :
    Formula.valueBy resolve f.body = f.value tokens := by
  obtain ⟨found, hall, htext⟩ := resolveAll_eq_ok fun r hr => (h r hr).imp fun _ => And.right
  have hsame : ∀ r ∈ Formula.references f.body, found.text r = tokens.text r := by
    intro r hr
    obtain ⟨t, hget, hres⟩ := h r hr
    rw [htext r hr] at hres
    rw [Except.ok.inj hres, Tokens.text, hget]
    rfl
  simp only [Formula.valueBy, hforeign, Bool.false_eq_true, if_false, hall, Frame.value]
  have hsubstitute := substitute_congr hsame
  generalize Formula.substitute found.text f.body = text at hsubstitute ⊢
  subst hsubstitute
  generalize Arithmetic.evaluate (Formula.substitute tokens.text f.body) = result
  cases result <;> rfl

/-! ## The recursion -/

namespace Grid

/-- Fewer cells lie off a path that has grown by a cell. -/
theorem length_off_path_lt {g : Grid} {path : List Reference} {r : Reference} {c : Cell}
    (hr : r ∉ path) (hc : g.find? r = some c) :
    ((g.addresses.map Reference.cell).filter fun s => decide (s ∉ path ++ [r])).length <
      ((g.addresses.map Reference.cell).filter fun s => decide (s ∉ path)).length := by
  have hmem : r ∈ g.addresses.map Reference.cell := by
    cases r with
    | cell a => exact List.mem_map_of_mem (Grid.mem_addresses.2 (Grid.contains_of_get? hc))
    | unknown t => simp [Grid.find?] at hc
  refine length_filter_lt_of_imp hmem (by simpa using hr) (by simp) fun s _ hs => ?_
  simp only [List.mem_append, not_or, decide_eq_true_eq] at hs ⊢
  exact hs.1

/-- The token of a reference that is met at the end of a path. -/
def resolve (g : Grid) (path : List Reference) (r : Reference) : Except FormulaError String :=
  if _hr : r ∈ path then .error (.circular path r)
  else
    match _hc : g.find? r with
    | none => .error (.unknownReference r)
    | some c =>
      match c.formula with
      | some formula =>
        (Formula.valueBy (fun s => g.resolve (path ++ [r]) s) (Formula.body formula)).map
          Number.token
      | none =>
        match Literal.token? c.value with
        | none => .error (.evaluation (.notANumber r))
        | some t => .ok t
  termination_by ((g.addresses.map Reference.cell).filter fun s => decide (s ∉ path)).length
  decreasing_by exact length_off_path_lt _hr _hc

variable {g : Grid} {path : List Reference} {r : Reference} {c : Cell}

theorem resolve_of_mem (h : r ∈ path) : g.resolve path r = .error (.circular path r) := by
  rw [resolve, dif_pos h]

theorem resolve_of_find?_none (hr : r ∉ path) (hc : g.find? r = none) :
    g.resolve path r = .error (.unknownReference r) := by
  rw [resolve, dif_neg hr]
  split
  · rfl
  · rename_i h
    rw [hc] at h
    cases h

theorem resolve_of_formula {formula : String} (hr : r ∉ path) (hc : g.find? r = some c)
    (hf : c.formula = some formula) :
    g.resolve path r =
      (Formula.valueBy (g.resolve (path ++ [r])) (Formula.body formula)).map Number.token := by
  rw [resolve, dif_neg hr]
  split
  · rename_i h
    rw [hc] at h
    cases h
  · rename_i d h
    rw [hc] at h
    cases h
    simp only [hf]

theorem resolve_of_literal (hr : r ∉ path) (hc : g.find? r = some c) (hf : c.formula = none) :
    g.resolve path r =
      match Literal.token? c.value with
      | none => .error (.evaluation (.notANumber r))
      | some t => .ok t := by
  rw [resolve, dif_neg hr]
  split
  · rename_i h
    rw [hc] at h
    cases h
  · rename_i d h
    rw [hc] at h
    cases h
    simp only [hf]

/-! ## Reading and reaching -/

/-- The formula in the cell of `r` refers to `s`. -/
def Reads (g : Grid) (r s : Reference) : Prop :=
  ∃ c formula, g.find? r = some c ∧ c.formula = some formula ∧ s ∈ Formula.reads formula

/-- What a reference leads to by formulas, itself included. -/
def Reaches (g : Grid) : Reference → Reference → Prop := Relation.ReflTransGen g.Reads

/-- How a reference that resolves came to its token. -/
theorem resolve_ok_cases {t : String} (h : g.resolve path r = .ok t) :
    r ∉ path ∧ ∃ c, g.find? r = some c ∧
      ((∃ formula x, c.formula = some formula ∧
          Formula.valueBy (g.resolve (path ++ [r])) (Formula.body formula) = .ok x ∧
          t = Number.token x) ∨
        (c.formula = none ∧ Literal.token? c.value = some t)) := by
  by_cases hr : r ∈ path
  · simp [resolve_of_mem hr] at h
  refine ⟨hr, ?_⟩
  cases hc : g.find? r with
  | none => simp [resolve_of_find?_none hr hc] at h
  | some c =>
    refine ⟨c, rfl, ?_⟩
    cases hf : c.formula with
    | some formula =>
      rw [resolve_of_formula hr hc hf] at h
      cases hv : Formula.valueBy (g.resolve (path ++ [r])) (Formula.body formula) with
      | error e => simp [hv, Except.map] at h
      | ok x =>
        rw [hv] at h
        exact .inl ⟨formula, x, rfl, hv, (Except.ok.inj h).symm⟩
    | none =>
      rw [resolve_of_literal hr hc hf] at h
      cases hl : Literal.token? c.value with
      | none => simp [hl] at h
      | some u =>
        simp only [hl, Except.ok.injEq] at h
        exact .inr ⟨rfl, congrArg some h⟩

/-- What a reference that resolves reads resolves one step further along the path. -/
theorem resolve_of_reads {s : Reference} {t : String} (h : g.resolve path r = .ok t)
    (hs : g.Reads r s) : ∃ u, g.resolve (path ++ [r]) s = .ok u := by
  obtain ⟨d, formula, hd, hf, hmem⟩ := hs
  obtain ⟨-, c, hc, ⟨formula', x, hf', hv, -⟩ | ⟨hf', -⟩⟩ := resolve_ok_cases h
  · obtain rfl : c = d := Option.some.inj (hc.symm.trans hd)
    obtain rfl : formula' = formula := Option.some.inj (hf'.symm.trans hf)
    exact exists_of_valueBy hv s hmem
  · obtain rfl : c = d := Option.some.inj (hc.symm.trans hd)
    rw [hf] at hf'
    cases hf'

/-- All that a reference leads to resolves, each along some path, if the reference does. -/
theorem exists_resolve_of_reaches {s : Reference} {t : String} (h : g.resolve path r = .ok t)
    (hs : g.Reaches r s) : ∃ path u, g.resolve path s = .ok u := by
  induction hs using Relation.ReflTransGen.head_induction_on generalizing path t with
  | refl => exact ⟨path, t, h⟩
  | head hread _ ih =>
    obtain ⟨u, hu⟩ := resolve_of_reads h hread
    exact ih hu

/-- A reference that resolves along a path reaches nothing on it. -/
theorem not_mem_of_resolve {s : Reference} {t : String} (h : g.resolve path r = .ok t)
    (hs : g.Reaches r s) : s ∉ path := by
  induction hs using Relation.ReflTransGen.head_induction_on generalizing path t with
  | refl => exact (resolve_ok_cases h).1
  | head hread _ ih =>
    obtain ⟨u, hu⟩ := resolve_of_reads h hread
    exact fun hmem => ih hu (List.mem_append_left _ hmem)

/-- A reference that resolves lies on no cycle. -/
theorem acyclic_of_resolve {t : String} (h : g.resolve path r = .ok t) :
    ¬ Relation.TransGen g.Reads r r := by
  intro hcycle
  obtain ⟨s, hread, hback⟩ := Relation.TransGen.head'_iff.1 hcycle
  obtain ⟨u, hu⟩ := resolve_of_reads h hread
  exact not_mem_of_resolve hu hback (List.mem_append_right _ List.mem_cons_self)

/-- A reference that resolves along one path resolves to the same token along each path that it
does not reach. -/
theorem resolve_of_avoids {path' : List Reference} {t : String} (h : g.resolve path r = .ok t)
    (havoid : ∀ s, g.Reaches r s → s ∉ path') : g.resolve path' r = .ok t := by
  -- The recursion along `path` carries the proof; `path'` follows it one reference at a time.
  induction path, r using Grid.resolve.induct (g := g) generalizing path' t with
  | case1 path r hr => simp [resolve_of_mem hr] at h
  | case2 path r hr hc => simp [resolve_of_find?_none hr hc] at h
  | case3 path r hr c hc formula hf ih =>
    have hr' : r ∉ path' := havoid r .refl
    rw [resolve_of_formula hr hc hf] at h
    rw [resolve_of_formula hr' hc hf]
    cases hv : Formula.valueBy (g.resolve (path ++ [r])) (Formula.body formula) with
    | error e => simp [hv, Except.map] at h
    | ok x =>
      have hsame : ∀ s ∈ Formula.references (Formula.body formula),
          g.resolve (path' ++ [r]) s = g.resolve (path ++ [r]) s := by
        intro s hs
        obtain ⟨u, hu⟩ := exists_of_valueBy hv s hs
        rw [hu]
        refine ih s hu fun q hq hmem => ?_
        have hread : g.Reads r s := ⟨c, formula, hc, hf, hs⟩
        rcases List.mem_append.1 hmem with hmem | hmem
        · exact havoid q (.head hread hq) hmem
        · exact not_mem_of_resolve hu hq (List.mem_append_right _ hmem)
      rw [valueBy_congr hsame, h]
  | case4 path r hr c hc hf hl => simp [resolve_of_literal hr hc hf, hl] at h
  | case5 path r hr c hc hf u hl =>
    rw [resolve_of_literal hr hc hf, hl] at h
    rw [resolve_of_literal (havoid r .refl) hc hf, hl]
    exact h

/-- All paths along which a reference resolves give it the same token. -/
theorem resolve_unique {path' : List Reference} {t u : String} (h : g.resolve path r = .ok t)
    (h' : g.resolve path' r = .ok u) : t = u :=
  Except.ok.inj ((resolve_of_avoids h fun _ => not_mem_of_resolve h').symm.trans h')

end Grid

end Spreadsheet
