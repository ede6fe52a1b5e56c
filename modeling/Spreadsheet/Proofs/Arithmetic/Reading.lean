import Mathlib.Data.List.Basic
import Spreadsheet.Proofs.Arithmetic.Scan

/-!
# Expressions are read by the grammar

Main result: `evaluation_follows_grammar`. An expression has a value exactly if it derives from the
grammar and nothing in it is divided by zero, and then its value is that of its only tree. Every
other text is an error.

The evaluator never builds a tree. The tree that it walks is `Reads`: a text is split where
`split?` says, and what cannot be split is taken apart as `form` says. Both directions compare it
with `Derives`.

* A derived text is read as its tree (`Derives.reads`), by induction on the tree: the operator that
  is found is the one at the root, because the scan passes over the operand behind it.
* What is read derives (`Reads.derives`). If an operand that was cut off were of too wide a
  category, then its own last operator would have been found in place of the one at which the text was cut.

So trees are unique, because a text is read in one way only (`Reads.unique`).
-/

namespace Spreadsheet.Arithmetic

open Text Number

variable {s cs l r : List Char} {t a b : Tree Empty} {op : Operator} {c : Char} {n : Nat}
  {v : Float}

/-! ## Cutting a text up -/

theorem split?_sound (h : split? cs = some (l, op, r)) :
    ∃ l' c r', cs = l' ++ c :: r' ∧ l = stripChars l' ∧ r = stripChars r' ∧
      (additive? c = some op ∨
        splitFrom additive? 0 cs.reverse [] = none ∧ multiplicative? c = some op) := by
  rw [split?] at h
  rcases Option.or_eq_some_iff.1 h with hadd | ⟨hnone, hmul⟩
  · obtain ⟨l', c, r', hcs, hop, hl, hr⟩ := splitFrom_sound hadd
    rw [List.reverse_reverse, List.append_nil] at hcs
    exact ⟨l', c, r', hcs, hl, hr, .inl hop⟩
  · obtain ⟨l', c, r', hcs, hop, hl, hr⟩ := splitFrom_sound hmul
    rw [List.reverse_reverse, List.append_nil] at hcs
    exact ⟨l', c, r', hcs, hl, hr, .inr ⟨hnone, hop⟩⟩

/-- What a text of a form consists of. -/
def Form.Spells (cs : List Char) : Form → Prop
  | .percent o => cs = o ++ ['%']
  | .bracket i => cs.getLast? ≠ some '%' ∧
    ∃ rest, cs = '(' :: rest ∧ closeBracket? 0 rest = some (i, [])
  | .negative o => cs.getLast? ≠ some '%' ∧ cs = '-' :: o
  | .positive o => cs.getLast? ≠ some '%' ∧ cs = '+' :: o
  | .number x => number? cs = some x

theorem Numeral.getLast?_ne {text whole fraction : List Char} (h : Numeral text whole fraction) :
    text.getLast? ≠ some '%' :=
  fun hlast => h.not_mem (by decide) (by decide) (List.mem_of_getLast? hlast)

theorem Numeral.head?_ne {text whole fraction : List Char} (h : Numeral text whole fraction)
    (hc : c = '(' ∨ c ∈ operators) : text.head? ≠ some c := by
  intro hhead
  have hinert := inert_of_numeral h c (List.mem_of_head? hhead)
  rcases hc with rfl | hc
  · exact hinert.2.1 rfl
  · exact hinert.1 hc

/-- The form of a text is the one that it spells. -/
theorem form_spells {f : Form} (h : form cs = .ok f) : f.Spells cs := by
  unfold form at h
  split at h
  · rename_i hlast
    cases h
    exact (List.dropLast_append_getLast? '%' (by simpa using hlast)).symm
  · rename_i hlast
    have hne : cs.getLast? ≠ some '%' := fun heq => hlast (beq_iff_eq.2 heq)
    split at h
    · rename_i rest
      split at h
      · rename_i inner hclose
        cases h
        exact ⟨hne, rest, rfl, hclose⟩
      · cases h
    · cases h
      exact ⟨hne, rfl⟩
    · cases h
      exact ⟨hne, rfl⟩
    · split at h
      · rename_i x hx
        cases h
        exact hx
      · cases h

theorem form_of_spells {f : Form} (h : f.Spells cs) : form cs = .ok f := by
  cases f with
  | percent o =>
    obtain rfl : cs = o ++ ['%'] := h
    simp [form]
  | bracket i =>
    obtain ⟨hlast, rest, rfl, hclose⟩ := h
    unfold form
    rw [if_neg (by simpa using hlast)]
    simp only [hclose]
  | negative o | positive o =>
    obtain ⟨hlast, rfl⟩ := h
    unfold form
    rw [if_neg (by simpa using hlast)]
    rfl
  | number x =>
    have hx : number? cs = some x := h
    obtain ⟨whole, fraction, hnumeral, -⟩ := number?_eq_some_iff.1 hx
    unfold form
    rw [if_neg (by simpa using hnumeral.getLast?_ne)]
    split
    · exact absurd rfl (hnumeral.head?_ne (c := '(') (.inl rfl))
    · exact absurd rfl (hnumeral.head?_ne (c := '-') (.inr (by decide)))
    · exact absurd rfl (hnumeral.head?_ne (c := '+') (.inr (by decide)))
    · simp only [hx]

/-! ## Reading -/

/-- How the evaluator reads a text: cut at the operator that is found, or by its form. -/
inductive Reads : List Char → Tree Empty → Prop
  | binary {s l r : List Char} {op : Operator} {a b : Tree Empty} :
      split? (stripChars s) = some (l, op, r) → Reads l a → Reads r b → Reads s (.binary a op b)
  | percent {s o : List Char} {t : Tree Empty} :
      split? (stripChars s) = none → form (stripChars s) = .ok (.percent o) → Reads o t →
      Reads s (.percent t)
  | bracket {s i : List Char} {t : Tree Empty} :
      split? (stripChars s) = none → form (stripChars s) = .ok (.bracket i) → Reads i t →
      Reads s (.bracket t)
  | negative {s o : List Char} {t : Tree Empty} :
      split? (stripChars s) = none → form (stripChars s) = .ok (.negative o) → Reads o t →
      Reads s (.negative t)
  | positive {s o : List Char} {t : Tree Empty} :
      split? (stripChars s) = none → form (stripChars s) = .ok (.positive o) → Reads o t →
      Reads s (.positive t)
  | number {s whole fraction : List Char} :
      split? (stripChars s) = none →
      form (stripChars s) = .ok (.number (decimalValue whole fraction)) →
      Numeral (stripChars s) whole fraction → Reads s (.number whole fraction)

/-- A text is read in one way only. -/
theorem Reads.unique {t' : Tree Empty} (h : Reads s t) (h' : Reads s t') : t = t' := by
  induction h generalizing t' with
  | binary hsplit _ _ ihl ihr =>
    cases h' with
    | binary hsplit' hl hr =>
      obtain ⟨rfl, rfl, rfl⟩ : _ ∧ _ ∧ _ := by simpa using hsplit.symm.trans hsplit'
      rw [ihl hl, ihr hr]
    | _ hnone => rw [hsplit] at hnone; cases hnone
  | percent hnone hform _ ih | bracket hnone hform _ ih | negative hnone hform _ ih
  | positive hnone hform _ ih =>
    cases h' with
    | binary hsplit => rw [hnone] at hsplit; cases hsplit
    | number _ hform' => cases hform.symm.trans hform'
    | _ _ hform' h' => cases hform.symm.trans hform' <;> rw [ih h']
  | number hnone hform hnumeral =>
    cases h' with
    | binary hsplit => rw [hnone] at hsplit; cases hsplit
    | number _ _ hnumeral' =>
      obtain ⟨rfl, rfl⟩ := hnumeral.unique hnumeral'
      rfl
    | _ _ hform' => cases hform.symm.trans hform'

/-! ## Derived text is read -/

/-- A signed text does not end in a percent sign. -/
theorem Derives.getLast?_ne {L : Level} (h : Derives .plain L s t) (hL : L = .signed) :
    s.getLast? ≠ some '%' := by
  induction h with
  | negative _ hs ih | positive _ hs ih =>
    rw [List.getLast?_append_of_ne_nil _ (List.cons_ne_nil _ _),
      List.getLast?_cons_of_ne_nil hs.ne_nil]
    exact ih rfl
  | ofAtom h =>
    cases h with
    | @number w v text whole fraction hw hnumeral hv =>
      intro hlast
      rcases List.mem_append.1 (List.mem_of_getLast? hlast) with hmem | hmem
      · exact absurd (hw _ hmem) (by decide)
      · rw [show Alphabet.plain.char = id from rfl, List.map_id] at hmem
        rcases List.mem_append.1 hmem with hmem | hmem
        · exact hnumeral.not_mem (by decide) (by decide) hmem
        · exact absurd (hv _ hmem) (by decide)
    | @name w v n _ _ => exact n.elim
    | @bracket w s v t _ _ hv =>
      have hshape : w ++ Alphabet.plain.char '(' :: (s ++ Alphabet.plain.char ')' :: v) =
          (w ++ '(' :: s) ++ ')' :: v := by simp
      intro hlast
      rw [hshape, List.getLast?_append_of_ne_nil _ (List.cons_ne_nil _ _)] at hlast
      rcases List.mem_cons.1 (List.mem_of_getLast? hlast) with hmem | hmem
      · exact absurd hmem (by decide)
      · exact absurd (hv _ hmem) (by decide)
  | _ => cases hL

/-- A derived text is read as its tree. -/
theorem Derives.reads {L : Level} (h : Derives .plain L s t) : Reads s t := by
  induction t generalizing s L with
  | binary a op b iha ihb =>
    obtain ⟨l, c, r, hs, ⟨hop, hl, hr⟩ | ⟨hop, hl, hr⟩⟩ := h.strip.spells
    · have hsplit := split?_additive [] hl hop hr
      rw [List.nil_append, ← Alphabet.plain_char c, ← hs] at hsplit
      exact .binary hsplit (iha hl.strip) (ihb hr.strip)
    · have hsplit := split?_multiplicative hl hop hr
      rw [← Alphabet.plain_char c, ← hs] at hsplit
      exact .binary hsplit (iha hl.strip) (ihb hr.strip)
  | percent t ih =>
    obtain ⟨o, w, hs, ho, hw⟩ := h.strip.spells
    obtain rfl := hw.back_eq_nil (r := o ++ ['%']) (by rw [hs]; simp)
    have hnone := split?_factor (.percent ho hw)
    rw [← hs] at hnone
    exact .percent hnone (form_of_spells hs) (ih ho)
  | negative t ih =>
    obtain ⟨w, o, hs, hw, ho⟩ := h.strip.spells
    obtain rfl := hw.front_eq_nil hs
    have hsigned : Derives .plain .signed (stripChars s) (.negative t) := hs ▸ .negative hw ho
    exact .negative (split?_factor (.ofSigned hsigned))
      (form_of_spells ⟨hsigned.getLast?_ne rfl, hs⟩) (ih ho)
  | positive t ih =>
    obtain ⟨w, o, hs, hw, ho⟩ := h.strip.spells
    obtain rfl := hw.front_eq_nil hs
    have hsigned : Derives .plain .signed (stripChars s) (.positive t) := hs ▸ .positive hw ho
    exact .positive (split?_factor (.ofSigned hsigned))
      (form_of_spells ⟨hsigned.getLast?_ne rfl, hs⟩) (ih ho)
  | bracket t ih =>
    obtain ⟨w, i, v, hs, hw, hi, hv⟩ := h.strip.spells
    obtain rfl := hw.front_eq_nil hs
    obtain rfl := hv.back_eq_nil (r := '(' :: (i ++ [')'])) (by rw [hs]; simp)
    have hatom : Derives .plain .atom (stripChars s) (.bracket t) := hs ▸ .bracket hw hi hv
    have hclose : closeBracket? 0 (i ++ [')']) = some (i, []) := by
      rw [hi.spans]
      simp [closeBracket?]
    exact .bracket (split?_factor (.ofSigned (.ofAtom hatom)))
      (form_of_spells ⟨(Derives.ofAtom hatom).getLast?_ne rfl, i ++ [')'], hs, hclose⟩) (ih hi)
  | number whole fraction =>
    obtain ⟨w, text, v, hs, hw, hnumeral, hv⟩ := h.strip.spells
    obtain rfl := hw.front_eq_nil hs
    obtain rfl := hv.back_eq_nil hs
    have hatom : Derives .plain .atom (stripChars s) (.number whole fraction) :=
      hs ▸ .number hw hnumeral hv
    obtain rfl : stripChars s = text := by simpa [Alphabet.plain] using hs
    exact .number (split?_factor (.ofSigned (.ofAtom hatom)))
      (form_of_spells (number?_eq_some_iff.2 ⟨whole, fraction, hnumeral, rfl⟩)) hnumeral
  | name n => exact n.elim

/-! ## What is read derives -/

/-- A text that is cut off behind the last operator has no such operator at its own root: it would
be its own right operand. -/
theorem Reads.no_operator {L : Level} (h : Reads (stripChars r) (.binary a op b))
    (hr : Derives .plain L r b) : False := by
  have heq := h.unique hr.strip.reads
  have hdepth := congrArg Tree.depth heq
  simp only [Tree.depth] at hdepth
  omega

theorem split?_eq_none_iff :
    split? cs = none ↔ splitFrom additive? 0 cs.reverse [] = none ∧
      splitFrom multiplicative? 0 cs.reverse [] = none := by
  rw [split?, Option.or_eq_none_iff]

/-- A sum that does not split anywhere, whatever is put in front of it, is a factor. So it is with
more text behind it if a scan passes over that too. -/
theorem Derives.isFactor {front back : List Char} (h : Derives .plain .sum s t)
    (hnone : split? (front ++ s ++ back) = none) (hback : ∀ c ∈ back, Inert c) :
    Derives .plain .factor s t := by
  have hpasses : ∀ {operator? : Char → Option Operator} {r : List Char}, IsKind operator? →
      Passes operator? r → Passes operator? (r ++ back) :=
    fun hkind hr => hr.append (skips_inert hkind hback)
  have hblank : ∀ {L : Level} {r : List Char} {b : Tree Empty}, Derives .plain L r b →
      isBlankText (r ++ back) = false := by
    intro L r b hr
    have hfalse := hr.not_isBlankText
    unfold isBlankText at hfalse ⊢
    rw [List.all_append, hfalse, Bool.false_and]
  have hshape : ∀ {l r : List Char} {c : Char},
      front ++ (l ++ Alphabet.plain.char c :: r) ++ back = front ++ l ++ c :: (r ++ back) := by
    intro l r c
    simp
  obtain ⟨hadd, hmul⟩ := split?_eq_none_iff.1 hnone
  cases h with
  | sum hl hop hr =>
    rw [hshape, splitFrom_found front hl isKind_additive? hop (hblank hr)
      (hpasses isKind_additive? (skip_product hr rfl))] at hadd
    cases hadd
  | ofProduct h =>
    cases h with
    | product hl hop hr =>
      rw [hshape, splitFrom_found front hl isKind_multiplicative? hop (hblank hr)
        (hpasses isKind_multiplicative? (skip_factor hr rfl isKind_multiplicative?))] at hmul
      cases hmul
    | ofFactor h => exact h

/-- A factor without a percent sign at its end is a signed atom. -/
theorem Derives.isSigned (h : Derives .plain .factor r t) (hs : stripChars s = c :: r)
    (hlast : (stripChars s).getLast? ≠ some '%') : Derives .plain .signed r t := by
  cases h with
  | ofSigned h => exact h
  | @percent x w _ _ hw =>
    have hcut : stripChars s = c :: (x ++ ['%']) ++ w := by simp [hs]
    obtain rfl := hw.back_eq_nil hcut
    rw [hs, ← List.cons_append, List.getLast?_concat] at hlast
    exact absurd rfl hlast

/-- Operands cut apart at an additive operator derive a sum. -/
theorem Derives.sum_of_split? (hl : Derives .plain .sum l a) (hr : Derives .plain .sum r b)
    (hop : additive? c = some op) (hb : Reads (stripChars r) b)
    (hsplit : split? (l ++ c :: r) = some (stripChars l, op, stripChars r)) :
    Derives .plain .sum (l ++ c :: r) (.binary a op b) := by
  cases hr with
  | ofProduct hr => exact .sum hl hop hr
  | @sum l₂ r₂ _ _ c₂ _ hl₂ hop₂ hr₂ =>
    -- The operator in the right operand would have been found.
    have hshape : l ++ c :: (l₂ ++ Alphabet.plain.char c₂ :: r₂) = l ++ [c] ++ l₂ ++ c₂ :: r₂ := by
      simp
    have hfound := split?_additive (l ++ [c]) hl₂ hop₂ hr₂
    rw [← hshape, hsplit] at hfound
    simp only [Option.some.injEq, Prod.mk.injEq] at hfound
    rw [hfound.2.2] at hb
    exact (hb.no_operator hr₂).elim

/-- Operands cut apart at a multiplicative operator derive a product if no additive one is found. -/
theorem Derives.product_of_split? (hl : Derives .plain .sum l a) (hr : Derives .plain .sum r b)
    (hop : multiplicative? c = some op) (hb : Reads (stripChars r) b)
    (hnone : splitFrom additive? 0 (l ++ c :: r).reverse [] = none)
    (hsplit : split? (l ++ c :: r) = some (stripChars l, op, stripChars r)) :
    Derives .plain .product (l ++ c :: r) (.binary a op b) := by
  have hfactor : Derives .plain .factor r b := by
    cases hr with
    | @sum l₂ r₂ _ _ c₂ _ hl₂ hop₂ hr₂ =>
      have hshape : l ++ c :: (l₂ ++ Alphabet.plain.char c₂ :: r₂) =
          l ++ [c] ++ l₂ ++ c₂ :: r₂ := by
        simp
      rw [hshape, splitFrom_found (l ++ [c]) hl₂ isKind_additive? hop₂ hr₂.not_isBlankText
        (skip_product hr₂ rfl)] at hnone
      cases hnone
    | ofProduct hr =>
      cases hr with
      | ofFactor hr => exact hr
      | @product l₂ r₂ _ _ c₂ _ hl₂ hop₂ hr₂ =>
        have hshape : l ++ c :: (l₂ ++ Alphabet.plain.char c₂ :: r₂) =
            l ++ [c] ++ l₂ ++ c₂ :: r₂ := by simp
        rw [split?, hnone, hshape, splitFrom_found (l ++ [c]) hl₂ isKind_multiplicative? hop₂
          hr₂.not_isBlankText (skip_factor hr₂ rfl isKind_multiplicative?)] at hsplit
        simp only [Option.none_or, Option.some.injEq, Prod.mk.injEq] at hsplit
        rw [← hsplit.2.2] at hb
        exact (hb.no_operator hr₂).elim
  cases hl with
  | ofProduct hl => exact .product hl hop hfactor
  | @sum l₁ r₁ _ _ c₁ _ hl₁ hop₁ hr₁ =>
    have hproduct : Derives .plain .product (r₁ ++ c :: r) _ := .product hr₁ hop hfactor
    have hshape : l₁ ++ Alphabet.plain.char c₁ :: r₁ ++ c :: r =
        [] ++ l₁ ++ c₁ :: (r₁ ++ c :: r) := by
      simp
    rw [hshape, splitFrom_found [] hl₁ isKind_additive? hop₁ hproduct.not_isBlankText
      (skip_product hproduct rfl)] at hnone
    cases hnone

/-- What is read derives from the grammar. -/
theorem Reads.derives (h : Reads s t) (hplain : PlainBlanks s) : Derives .plain .sum s t := by
  induction h with
  | @binary s _ _ op a b hsplit ha hb iha ihb =>
    have hstrip := hplain.mono (stripChars_subset s)
    obtain ⟨l, c, r, hs, rfl, rfl, hop⟩ := split?_sound hsplit
    have hplain_l : PlainBlanks l := hstrip.mono (by simp [hs])
    have hplain_r : PlainBlanks r := hstrip.mono (by simp [hs])
    have hl := Derives.of_strip hplain_l (iha (hplain_l.mono (stripChars_subset l)))
    have hr := Derives.of_strip hplain_r (ihb (hplain_r.mono (stripChars_subset r)))
    refine .of_strip hplain ?_
    rw [hs] at hsplit hop ⊢
    rcases hop with hop | ⟨hnone, hop⟩
    · exact hl.sum_of_split? hr hop hb hsplit
    · exact .ofProduct (hl.product_of_split? hr hop hb hnone hsplit)
  | @percent s o t hnone hform _ ih =>
    have hs : stripChars s = o ++ ['%'] := form_spells hform
    have hstrip := hplain.mono (stripChars_subset s)
    have ho := ih (hstrip.mono (by simp [hs]))
    have hcut : split? ([] ++ o ++ ['%']) = none := hs ▸ hnone
    have hfactor := ho.isFactor hcut (by simp [inert_percent])
    refine .of_strip hplain (hs ▸ ?_)
    exact .ofProduct (.ofFactor (.percent (w := []) hfactor nofun))
  | @bracket s i t _ hform _ ih =>
    obtain ⟨-, rest, hs, hclose⟩ := form_spells hform
    have hrest : rest = i ++ [')'] := closeBracket?_sound hclose
    have hstrip := hplain.mono (stripChars_subset s)
    have hi := ih (hstrip.mono (by simp [hs, hrest]))
    refine .of_strip hplain (hs ▸ hrest ▸ ?_)
    exact .isSum (.bracket (w := []) (v := []) nofun hi nofun)
  | @negative s o t hnone hform _ ih | @positive s o t hnone hform _ ih =>
    obtain ⟨hlast, hs⟩ := form_spells hform
    have hstrip := hplain.mono (stripChars_subset s)
    have ho := ih (hstrip.mono (by simp [hs]))
    rw [hs, ← List.singleton_append, ← List.append_nil (_ ++ o)] at hnone
    have hsigned := (ho.isFactor hnone nofun).isSigned hs hlast
    refine .of_strip hplain (hs ▸ ?_)
    first
      | exact .isSum (.negative (w := []) nofun hsigned)
      | exact .isSum (.positive (w := []) nofun hsigned)
  | number _ _ hnumeral =>
    have hderives := Derives.number (A := .plain) (w := []) (v := []) nofun hnumeral nofun
    rw [show Alphabet.plain.char = id from rfl, List.map_id, List.nil_append, List.append_nil]
      at hderives
    exact .of_strip hplain hderives.isSum

/-! ## Values -/

theorem valueChars_of_split? (h : split? (stripChars s) = some (l, op, r)) :
    valueChars (n + 1) s =
      match valueChars n l with
      | .error e => .error e
      | .ok a =>
        match valueChars n r with
        | .error e => .error e
        | .ok b => op.apply a b := by
  have hne : (stripChars s).isEmpty = false := by
    rw [List.isEmpty_eq_false_iff]
    rintro hnil
    rw [hnil] at h
    cases h
  have hunfold := valueChars.eq_2 s n
  simp only [hne, Bool.false_eq_true, if_false, h] at hunfold
  exact hunfold

theorem valueChars_of_form {f : Form} (hnone : split? (stripChars s) = none)
    (h : form (stripChars s) = .ok f) :
    valueChars (n + 1) s =
      match f with
      | .percent o => (valueChars n o).map (· / 100)
      | .bracket i => valueChars n i
      | .negative o => (valueChars n o).map (- ·)
      | .positive o => valueChars n o
      | .number x => .ok x := by
  have hne : (stripChars s).isEmpty = false := by
    rw [List.isEmpty_eq_false_iff]
    rintro hnil
    rw [hnil] at h
    cases h
  rw [valueChars]
  simp only [hne, Bool.false_eq_true, if_false, hnone, h]
  cases f <;> rfl

/-- A text that is nested no deeper than allowed has the value of its tree. -/
theorem Reads.valueChars_eq (h : Reads s t) (hdepth : t.depth ≤ n) :
    valueChars n s = t.value Empty.elim := by
  induction n generalizing s t with
  | zero => exact absurd hdepth (by have := t.depth_pos; omega)
  | succ n ih =>
    cases h with
    | binary hsplit ha hb =>
      obtain ⟨hdepth_a, hdepth_b⟩ := Nat.max_le.1 (Nat.le_of_succ_le_succ hdepth)
      rw [valueChars_of_split? hsplit, ih ha hdepth_a, ih hb hdepth_b]
      rfl
    | percent hnone hform h | bracket hnone hform h | negative hnone hform h
    | positive hnone hform h =>
      rw [valueChars_of_form hnone hform, Tree.value]
      simp only [ih h (Nat.le_of_succ_le_succ hdepth)]
    | number hnone hform _ => rw [valueChars_of_form hnone hform, Tree.value]

/-- A text that has a value is read. -/
theorem exists_reads (h : valueChars n s = .ok v) :
    ∃ t, Reads s t ∧ t.value Empty.elim = .ok v := by
  induction n generalizing s v with
  | zero => cases h
  | succ n ih =>
    cases hsplit : split? (stripChars s) with
    | some cut =>
      obtain ⟨l, op, r⟩ := cut
      rw [valueChars_of_split? hsplit] at h
      split at h
      · cases h
      · rename_i x hx
        split at h
        · cases h
        · rename_i y hy
          obtain ⟨a, ha, hax⟩ := ih hx
          obtain ⟨b, hb, hby⟩ := ih hy
          exact ⟨.binary a op b, .binary hsplit ha hb, by rw [Tree.value, hax, hby]; exact h⟩
    | none =>
      cases hform : form (stripChars s) with
      | error e =>
        rw [valueChars] at h
        simp only [hsplit, hform] at h
        split at h <;> cases h
      | ok f =>
        rw [valueChars_of_form hsplit hform] at h
        cases f with
        | percent o =>
          obtain ⟨x, hx, hv⟩ := Tree.ok_of_map h
          obtain ⟨t, ht, htx⟩ := ih hx
          exact ⟨.percent t, .percent hsplit hform ht, by rw [Tree.value, htx, ← hv]; rfl⟩
        | negative o =>
          obtain ⟨x, hx, hv⟩ := Tree.ok_of_map h
          obtain ⟨t, ht, htx⟩ := ih hx
          exact ⟨.negative t, .negative hsplit hform ht, by rw [Tree.value, htx, ← hv]; rfl⟩
        | bracket i =>
          obtain ⟨t, ht, htv⟩ := ih h
          exact ⟨.bracket t, .bracket hsplit hform ht, htv⟩
        | positive o =>
          obtain ⟨t, ht, htv⟩ := ih h
          exact ⟨.positive t, .positive hsplit hform ht, htv⟩
        | number x =>
          cases h
          obtain ⟨whole, fraction, hnumeral, rfl⟩ := number?_eq_some_iff.1 (form_spells hform)
          exact ⟨.number whole fraction, .number hsplit hform hnumeral, rfl⟩

/-! ## The grammar decides -/

theorem value_iff_derives (hplain : PlainBlanks s)
    (hdepth : ∀ t, Derives .plain .sum s t → t.depth ≤ n) :
    valueChars n s = .ok v ↔ ∃ t, Derives .plain .sum s t ∧ t.value Empty.elim = .ok v := by
  constructor
  · intro h
    obtain ⟨t, ht, hv⟩ := exists_reads h
    exact ⟨t, ht.derives hplain, hv⟩
  · rintro ⟨t, ht, hv⟩
    rw [ht.reads.valueChars_eq (hdepth t ht), hv]

theorem error_of_not_derives (hplain : PlainBlanks s) (h : ∀ t, ¬Derives .plain .sum s t) :
    ∃ e, valueChars n s = .error e := by
  cases hvalue : valueChars n s with
  | error e => exact ⟨e, rfl⟩
  | ok v =>
    obtain ⟨t, ht, -⟩ := exists_reads hvalue
    exact absurd (ht.derives hplain) (h t)

/-- Exactly the texts of the grammar are evaluated. A text has a value if it has a tree and the
value of that tree exists. The tree is the only one, its value is the result, and the only error is
a division by zero. A text without a tree is an error. -/
theorem evaluation_follows_grammar (text : List Char) (hplain : PlainBlanks text)
    (hdepth : ∀ t, Derives .plain .sum text t → t.depth ≤ 610) :
    (∀ v, valueChars maxNesting text = .ok v ↔
      ∃ t, Derives .plain .sum text t ∧ t.value Empty.elim = .ok v) ∧
    (∀ t, Derives .plain .sum text t →
      (∀ t', Derives .plain .sum text t' → t' = t) ∧
      valueChars maxNesting text = t.value Empty.elim ∧
      ∀ e, valueChars maxNesting text = .error e → e = .divisionByZero) ∧
    ((∀ t, ¬Derives .plain .sum text t) → ∃ e, valueChars maxNesting text = .error e) := by
  have hnesting : ∀ t, Derives .plain .sum text t → t.depth ≤ maxNesting :=
    fun t ht => (hdepth t ht).trans (by decide)
  refine ⟨fun v => value_iff_derives hplain hnesting, fun t ht => ⟨fun t' ht' => ?_, ?_⟩,
    error_of_not_derives hplain⟩
  · exact ht'.reads.unique ht.reads
  · have hvalue := ht.reads.valueChars_eq (hnesting t ht)
    exact ⟨hvalue, fun e he => Tree.divisionByZero_of_value nofun (hvalue.symm.trans he)⟩

/-- Differences associate to the left, and the percent sign belongs to the last number. -/
theorem evaluation_of_difference :
    PlainBlanks "7 - 2 - 50%".toList ∧
      (∀ t, Derives .plain .sum "7 - 2 - 50%".toList t → t.depth ≤ 610) ∧
      ∃ t, Derives .plain .sum "7 - 2 - 50%".toList t ∧ t.value Empty.elim = .ok (9 / 2) := by
  have hplain : PlainBlanks "7 - 2 - 50%".toList := by
    simp [PlainBlanks, isBlank]
  have hdepth : ∀ t, Derives .plain .sum "7 - 2 - 50%".toList t → t.depth ≤ 610 :=
    fun t ht => ht.depth_le_length.trans (by decide)
  exact ⟨hplain, hdepth,
    ((evaluation_follows_grammar _ hplain hdepth).1 _).1 (by decide +kernel)⟩

end Spreadsheet.Arithmetic
