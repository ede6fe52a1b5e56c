import Spreadsheet.Proofs.Arithmetic.Blanks

/-!
# Scanning derived text

An expression is split by a scan from its end that counts brackets and looks back from an operator
over blanks. What such a scan does on a derived text is said here once for each category.

* Between brackets it stops nowhere (`skip_inside`).
* Outside brackets it does not stop in a text whose category has no operator of the kind it looks
  for, whatever stands before the text, as long as no operand does (`skip_factor`, `skip_product`).
  The signs in front of the text are then no operators.
* Each derived text ends with an operand (`endsOperand_append`), so the operator behind one is
  found.

The search for a closing bracket passes over derived text as a whole (`Derives.spans`).
-/

namespace Spreadsheet.Arithmetic

open Text

variable {L : Level} {s before after : List Char} {t : Tree Empty} {c : Char} {op : Operator}
  {operator? : Char → Option Operator} {d : Int}

/-! ## Operators -/

/-- The characters that stand for operations. -/
def operators : List Char := ['+', '-', '*', '/']

theorem mem_operators : c ∈ operators ↔ c = '+' ∨ c = '-' ∨ c = '*' ∨ c = '/' := by
  simp [operators]

/-- A kind of operators that a scan may look for. -/
def IsKind (operator? : Char → Option Operator) : Prop :=
  ∀ c op, operator? c = some op → c ∈ operators

theorem isKind_additive? : IsKind additive? := by
  intro c op h
  unfold additive? at h
  split at h
  · decide
  · decide
  · cases h

theorem isKind_multiplicative? : IsKind multiplicative? := by
  intro c op h
  unfold multiplicative? at h
  split at h
  · decide
  · decide
  · cases h

theorem additive?_of_multiplicative? (h : multiplicative? c = some op) : additive? c = none := by
  unfold multiplicative? at h
  split at h
  · decide
  · decide
  · cases h

theorem IsKind.eq_none (h : IsKind operator?) (hc : c ∉ operators) : operator? c = none := by
  cases hop : operator? c with
  | none => rfl
  | some op => exact absurd (h c op hop) hc

/-- The characters that a scan passes over without taking notice. -/
def Inert (c : Char) : Prop := c ∉ operators ∧ c ≠ '(' ∧ c ≠ ')'

theorem inert_of_isDigit (h : isDigit c = true) : Inert c := by
  refine ⟨fun hc => ?_, ne_of_isDigit h (by decide), ne_of_isDigit h (by decide)⟩
  rcases mem_operators.1 hc with rfl | rfl | rfl | rfl <;> exact absurd h (by decide)

theorem inert_blank : Inert ' ' := by
  unfold Inert
  decide

theorem inert_point : Inert '.' := by
  unfold Inert
  decide

theorem inert_percent : Inert '%' := by
  unfold Inert
  decide

theorem inert_of_blank {w : List Char} (h : Alphabet.plain.Blank w) : ∀ c ∈ w, Inert c :=
  fun c hc => (h c hc).symm ▸ inert_blank

theorem inert_of_numeral {text whole fraction : List Char} (h : Numeral text whole fraction) :
    ∀ c ∈ text, Inert c := by
  intro c hc
  rcases h.digit_or_point c hc with hdigit | rfl
  · exact inert_of_isDigit hdigit
  · exact inert_point

/-- An operator is no bracket. -/
theorem ne_bracket_of_mem (h : c ∈ operators) : c ≠ '(' ∧ c ≠ ')' := by
  rcases mem_operators.1 h with rfl | rfl | rfl | rfl <;> decide

/-! ## Looking back -/

theorem endsOperand_blank (before : List Char) :
    endsOperand (' ' :: before) = endsOperand before := by
  simp [endsOperand]

theorem endsOperand_blanks {w : List Char} (h : Alphabet.plain.Blank w) (before : List Char) :
    endsOperand (w.reverse ++ before) = endsOperand before := by
  induction w generalizing before with
  | nil => rfl
  | cons c w ih =>
    obtain rfl : c = ' ' := h c List.mem_cons_self
    rw [List.reverse_cons, List.append_assoc, ih fun x hx => h x (List.mem_cons_of_mem _ hx)]
    exact endsOperand_blank before

theorem endsOperand_of_ne_blank (h : c ≠ ' ') :
    endsOperand (c :: before) =
      !(c == '(' || (additive? c).isSome || (multiplicative? c).isSome) := by
  have hdrop : (c :: before).dropWhile (· == ' ') = c :: before :=
    List.dropWhile_cons_of_neg (by simpa using h)
  unfold endsOperand
  rw [hdrop]

theorem endsOperand_of_mem (h : c ∈ '(' :: operators) (before : List Char) :
    endsOperand (c :: before) = false := by
  have hends : c ≠ ' ' ∧
      (!(c == '(' || (additive? c).isSome || (multiplicative? c).isSome)) = false := by
    rcases List.mem_cons.1 h with rfl | h
    · decide
    · rcases mem_operators.1 h with rfl | rfl | rfl | rfl <;> decide
  rw [endsOperand_of_ne_blank hends.1, hends.2]

theorem endsOperand_of_inert (h : Inert c) (hblank : c ≠ ' ') (before : List Char) :
    endsOperand (c :: before) = true := by
  rw [endsOperand_of_ne_blank hblank, isKind_additive?.eq_none h.1,
    isKind_multiplicative?.eq_none h.1, beq_false_of_ne h.2.1]
  rfl

/-- Each derived text ends with an operand. -/
theorem Derives.endsOperand_append (h : Derives .plain L s t) (before : List Char) :
    endsOperand (s.reverse ++ before) = true := by
  induction h generalizing before with
  | sum _ _ _ _ ih | product _ _ _ _ ih =>
    rw [List.reverse_append, List.reverse_cons, List.append_assoc, List.append_assoc]
    exact ih _
  | ofProduct _ ih | ofFactor _ ih | ofSigned _ ih | ofAtom _ ih => exact ih before
  | percent _ hw _ =>
    rw [List.reverse_append, List.reverse_cons, List.append_assoc, List.append_assoc,
      endsOperand_blanks hw]
    exact endsOperand_of_inert inert_percent (by decide) _
  | negative _ _ ih | positive _ _ ih =>
    rw [List.reverse_append, List.reverse_cons, List.append_assoc, List.append_assoc]
    exact ih _
  | @number w v text whole fraction _ hnumeral hv =>
    obtain ⟨ds, x, hx⟩ := (List.eq_nil_or_concat text).resolve_left hnumeral.ne_nil
    have hmem : x ∈ text := by simp [hx]
    have hne : x ≠ ' ' := by
      rcases hnumeral.digit_or_point x hmem with hdigit | rfl
      · exact ne_of_isDigit hdigit (by decide)
      · decide
    have hreverse : (w ++ (text.map Alphabet.plain.char ++ v)).reverse ++ before =
        v.reverse ++ (x :: ((ds.map Alphabet.plain.char).reverse ++ (w.reverse ++ before))) := by
      simp [hx]
    rw [hreverse, endsOperand_blanks hv]
    exact endsOperand_of_inert (inert_of_numeral hnumeral x hmem) hne _
  | @name w v n _ _ => exact n.elim
  | @bracket w s v t _ _ hv _ =>
    have hreverse : (w ++ Alphabet.plain.char '(' :: (s ++ Alphabet.plain.char ')' :: v)).reverse ++
        before = v.reverse ++ (')' :: (s.reverse ++ ('(' :: (w.reverse ++ before)))) := by
      simp
    rw [hreverse, endsOperand_blanks hv, endsOperand_of_ne_blank (by decide)]
    decide

/-! ## Text that a scan passes over -/

/-- A scan at depth `d` passes over a text. -/
def Skips (operator? : Char → Option Operator) (d : Int) (s : List Char) : Prop :=
  ∀ before after, splitFrom operator? d (s.reverse ++ before) after =
    splitFrom operator? d before (s ++ after)

namespace Skips

variable {l r : List Char}

theorem nil : Skips operator? d [] := fun _ _ => rfl

theorem append (hl : Skips operator? d l) (hr : Skips operator? d r) :
    Skips operator? d (l ++ r) := by
  intro before after
  rw [List.reverse_append, List.append_assoc, hr, hl, List.append_assoc]

theorem cons (hc : Skips operator? d [c]) (hr : Skips operator? d r) : Skips operator? d (c :: r) :=
  hc.append hr

end Skips

/-- What makes a scan stop at an operator. -/
def stopsAt (d : Int) (before after : List Char) : Bool :=
  d == 0 && endsOperand before && !isBlankText before && !isBlankText after

theorem splitFrom_goesOn (h : c ≠ '(' ∧ c ≠ ')')
    (hpass : operator? c = none ∨ stopsAt d before after = false) :
    splitFrom operator? d (c :: before) after = splitFrom operator? d before (c :: after) := by
  rw [splitFrom]
  simp only [beq_false_of_ne h.1, beq_false_of_ne h.2, Bool.false_eq_true, if_false]
  split
  · rename_i op hop
    have hfalse : stopsAt d before after = false :=
      hpass.resolve_left fun hnone => by rw [hop] at hnone; cases hnone
    unfold stopsAt at hfalse
    rw [hfalse, if_neg Bool.false_ne_true]
  · rfl

theorem splitFrom_stops (h : c ≠ '(' ∧ c ≠ ')') (hop : operator? c = some op)
    (hstop : stopsAt d before after = true) :
    splitFrom operator? d (c :: before) after =
      some (stripChars before.reverse, op, stripChars after) := by
  unfold stopsAt at hstop
  rw [splitFrom]
  simp only [beq_false_of_ne h.1, beq_false_of_ne h.2, Bool.false_eq_true, if_false, hop, hstop,
    if_true]

theorem skips_of_none (h : c ≠ '(' ∧ c ≠ ')') (hop : operator? c = none) :
    Skips operator? d [c] :=
  fun _ _ => splitFrom_goesOn h (.inl hop)

theorem skips_inert (hkind : IsKind operator?) {w : List Char} (h : ∀ c ∈ w, Inert c) :
    Skips operator? d w := by
  induction w with
  | nil => exact .nil
  | cons c w ih =>
    have hc := h c List.mem_cons_self
    exact (skips_of_none hc.2 (hkind.eq_none hc.1)).cons
      (ih fun x hx => h x (List.mem_cons_of_mem _ hx))

/-- An operator does not count between brackets, nor if no operand stands before it. -/
theorem splitFrom_blocked (h : c ∈ operators) (hblocked : d ≠ 0 ∨ endsOperand before = false)
    (after : List Char) :
    splitFrom operator? d (c :: before) after = splitFrom operator? d before (c :: after) := by
  refine splitFrom_goesOn (ne_bracket_of_mem h) (.inr ?_)
  rcases hblocked with hd | hends
  · simp [stopsAt, hd]
  · simp [stopsAt, hends]

theorem skips_operator (h : c ∈ operators) (hd : d ≠ 0) : Skips operator? d [c] :=
  fun _ after => splitFrom_blocked h (.inl hd) after

theorem skips_bracket (h : Skips operator? (d + 1) s) :
    Skips operator? d ('(' :: (s ++ [')'])) := by
  intro before after
  have hreverse : ('(' :: (s ++ [')'])).reverse ++ before =
      ')' :: (s.reverse ++ '(' :: before) := by
    simp
  rw [hreverse]
  show splitFrom operator? (d + 1) (s.reverse ++ '(' :: before) (')' :: after) = _
  rw [h]
  show splitFrom operator? (d + 1 - 1) before ('(' :: (s ++ ')' :: after)) = _
  simp

theorem skips_numeral (hkind : IsKind operator?) {w v text whole fraction : List Char}
    (hw : Alphabet.plain.Blank w) (h : Numeral text whole fraction) (hv : Alphabet.plain.Blank v) :
    Skips operator? d (w ++ (text.map Alphabet.plain.char ++ v)) := by
  rw [show Alphabet.plain.char = id from rfl, List.map_id]
  exact (skips_inert hkind (inert_of_blank hw)).append
    ((skips_inert hkind (inert_of_numeral h)).append (skips_inert hkind (inert_of_blank hv)))

theorem skips_bracketed (hkind : IsKind operator?) {w v : List Char} (hw : Alphabet.plain.Blank w)
    (h : Skips operator? (d + 1) s) (hv : Alphabet.plain.Blank v) :
    Skips operator? d (w ++ '(' :: (s ++ ')' :: v)) := by
  have hskips := (skips_inert hkind (inert_of_blank hw)).append
    ((skips_bracket h).append (skips_inert hkind (inert_of_blank hv)))
  simpa using hskips

/-- Between brackets a scan stops nowhere in derived text. -/
theorem skip_inside (h : Derives .plain L s t) (hkind : IsKind operator?) (hd : 0 < d) :
    Skips operator? d s := by
  induction h generalizing d with
  | sum _ hop _ ihl ihr =>
    exact (ihl hd).append ((skips_operator (isKind_additive? _ _ hop) (by omega)).cons (ihr hd))
  | product _ hop _ ihl ihr =>
    exact (ihl hd).append
      ((skips_operator (isKind_multiplicative? _ _ hop) (by omega)).cons (ihr hd))
  | ofProduct _ ih | ofFactor _ ih | ofSigned _ ih | ofAtom _ ih => exact ih hd
  | percent _ hw ih =>
    exact (ih hd).append ((skips_inert hkind (w := ['%']) (by simp [inert_percent])).cons
      (skips_inert hkind (inert_of_blank hw)))
  | negative hw _ ih | positive hw _ ih =>
    exact (skips_inert hkind (inert_of_blank hw)).append
      ((skips_operator (by decide) (by omega)).cons (ih hd))
  | number hw hnumeral hv => exact skips_numeral hkind hw hnumeral hv
  | @name w v n _ _ => exact n.elim
  | bracket hw _ hv ih => exact skips_bracketed hkind hw (ih (by omega)) hv

/-! ## Outside brackets -/

/-- A scan outside brackets passes over a text that no operand precedes. -/
def Passes (operator? : Char → Option Operator) (s : List Char) : Prop :=
  ∀ before after, endsOperand before = false →
    splitFrom operator? 0 (s.reverse ++ before) after = splitFrom operator? 0 before (s ++ after)

theorem Skips.passes (h : Skips operator? 0 s) : Passes operator? s :=
  fun before after _ => h before after

namespace Passes

variable {l r : List Char}

theorem append (hl : Passes operator? l) (hr : Skips operator? 0 r) :
    Passes operator? (l ++ r) := by
  intro before after hends
  rw [List.reverse_append, List.append_assoc, hr, hl _ _ hends, List.append_assoc]

/-- A sign in front of a text is not taken for an operator. -/
theorem sign (hkind : IsKind operator?) (hc : c ∈ operators) {w : List Char}
    (hw : Alphabet.plain.Blank w) (hr : Passes operator? r) : Passes operator? (w ++ c :: r) := by
  intro before after hends
  have hblank : endsOperand (w.reverse ++ before) = false := by rw [endsOperand_blanks hw, hends]
  have hreverse : (w ++ c :: r).reverse ++ before = r.reverse ++ (c :: (w.reverse ++ before)) := by
    simp
  rw [hreverse, hr _ _ (endsOperand_of_mem (List.mem_cons_of_mem _ hc) _),
    splitFrom_blocked hc (.inr hblank), skips_inert hkind (inert_of_blank hw)]
  simp

/-- An operator of another kind is passed over, and it starts an operand anew. -/
theorem operator (hl : Passes operator? l) (hc : c ∈ operators) (hnone : operator? c = none)
    (hr : Passes operator? r) : Passes operator? (l ++ c :: r) := by
  intro before after hends
  have hreverse : (l ++ c :: r).reverse ++ before = r.reverse ++ (c :: (l.reverse ++ before)) := by
    simp
  rw [hreverse, hr _ _ (endsOperand_of_mem (List.mem_cons_of_mem _ hc) _),
    splitFrom_goesOn (ne_bracket_of_mem hc) (.inl hnone), hl _ _ hends]
  simp

end Passes

/-- A scan passes over an atom. -/
theorem skip_atom (h : Derives .plain .atom s t) (hkind : IsKind operator?) :
    Skips operator? 0 s := by
  cases h with
  | number hw hnumeral hv => exact skips_numeral hkind hw hnumeral hv
  | @name w v n _ _ => exact n.elim
  | bracket hw hs hv => exact skips_bracketed hkind hw (skip_inside hs hkind (by omega)) hv

/-- A scan passes over a signed atom. -/
theorem skip_signed (h : Derives .plain L s t) (hL : L = .signed) (hkind : IsKind operator?) :
    Passes operator? s := by
  induction h with
  | negative hw _ ih | positive hw _ ih => exact .sign hkind (by decide) hw (ih rfl)
  | ofAtom h => exact (skip_atom h hkind).passes
  | _ => cases hL

/-- A scan passes over a factor. -/
theorem skip_factor (h : Derives .plain L s t) (hL : L = .factor) (hkind : IsKind operator?) :
    Passes operator? s := by
  induction h with
  | percent _ hw ih =>
    exact (ih rfl).append ((skips_inert hkind (w := ['%']) (by simp [inert_percent])).cons
      (skips_inert hkind (inert_of_blank hw)))
  | ofSigned h => exact skip_signed h rfl hkind
  | _ => cases hL

/-- A scan for additive operators passes over a product. -/
theorem skip_product (h : Derives .plain L s t) (hL : L = .product) : Passes additive? s := by
  induction h with
  | product _ hop hr ih =>
    exact (ih rfl).operator (isKind_multiplicative? _ _ hop) (additive?_of_multiplicative? hop)
      (skip_factor hr rfl isKind_additive?)
  | ofFactor h => exact skip_factor h rfl isKind_additive?
  | _ => cases hL

/-! ## Operators that are found -/

theorem Derives.not_isBlankText (h : Derives .plain L s t) : isBlankText s = false := by
  cases hs : isBlankText s with
  | false => rfl
  | true =>
    have hnil : s.dropWhile isBlank = [] :=
      List.dropWhile_eq_nil_iff.2 fun c hc => List.all_eq_true.1 hs c hc
    exact absurd hnil h.dropWhile.ne_nil

/-- An operator behind derived text is found if the scan passes over what follows. Any text may
stand in front. -/
theorem splitFrom_found {r : List Char} (front : List Char) (hs : Derives .plain L s t)
    (hkind : IsKind operator?) (hop : operator? c = some op) (hr : isBlankText r = false)
    (hpasses : Passes operator? r) :
    splitFrom operator? 0 (front ++ s ++ c :: r).reverse [] =
      some (stripChars (front ++ s), op, stripChars r) := by
  have hc := hkind c op hop
  have hstops : stopsAt 0 (s.reverse ++ front.reverse) (r ++ []) = true := by
    have hbefore : isBlankText (s.reverse ++ front.reverse) = false := by
      have hblank := hs.not_isBlankText
      unfold isBlankText at hblank ⊢
      rw [List.all_append, List.all_reverse, hblank, Bool.false_and]
    simp only [stopsAt, hs.endsOperand_append, hbefore, List.append_nil, hr]
    decide
  have hreverse : (front ++ s ++ c :: r).reverse =
      r.reverse ++ (c :: (s.reverse ++ front.reverse)) := by simp
  rw [hreverse, hpasses _ _ (endsOperand_of_mem (List.mem_cons_of_mem _ hc) _),
    splitFrom_stops (ne_bracket_of_mem hc) hop hstops, ← List.reverse_append,
    List.reverse_reverse, List.append_nil]

/-- The last additive operator is found. -/
theorem split?_additive {r : List Char} {b : Tree Empty} (front : List Char)
    (hs : Derives .plain L s t) (hop : additive? c = some op) (hr : Derives .plain .product r b) :
    split? (front ++ s ++ c :: r) = some (stripChars (front ++ s), op, stripChars r) := by
  rw [split?,
    splitFrom_found front hs isKind_additive? hop hr.not_isBlankText (skip_product hr rfl)]
  rfl

theorem splitFrom_eq_none (h : Passes operator? s) : splitFrom operator? 0 s.reverse [] = none := by
  have hpass := h [] [] rfl
  rwa [List.append_nil, List.append_nil] at hpass

/-- In a product the last multiplicative operator is found. -/
theorem split?_multiplicative {r : List Char} {b : Tree Empty} (hs : Derives .plain .product s t)
    (hop : multiplicative? c = some op) (hr : Derives .plain .factor r b) :
    split? (s ++ c :: r) = some (stripChars s, op, stripChars r) := by
  have hfound := splitFrom_found [] hs isKind_multiplicative? hop hr.not_isBlankText
    (skip_factor hr rfl isKind_multiplicative?)
  have hnone : splitFrom additive? 0 (s ++ c :: r).reverse [] = none :=
    splitFrom_eq_none (skip_product (.product hs hop hr) rfl)
  rw [List.nil_append] at hfound
  rw [split?, hnone, hfound]
  rfl

/-- In a factor there is no operator to split at. -/
theorem split?_factor (h : Derives .plain .factor s t) : split? s = none := by
  rw [split?, splitFrom_eq_none (skip_factor h rfl isKind_additive?),
    splitFrom_eq_none (skip_factor h rfl isKind_multiplicative?)]
  rfl

/-- What a scan finds is an operator of its kind in the text. -/
theorem splitFrom_sound {found : List Char × Operator × List Char}
    (h : splitFrom operator? d before after = some found) :
    ∃ l c r, before.reverse ++ after = l ++ c :: r ∧ operator? c = some found.2.1 ∧
      found.1 = stripChars l ∧ found.2.2 = stripChars r := by
  induction before generalizing d after with
  | nil => cases h
  | cons x before ih =>
    have hshape : (x :: before).reverse ++ after = before.reverse ++ x :: after := by simp
    rw [hshape]
    rw [splitFrom] at h
    split at h
    · exact ih h
    · split at h
      · exact ih h
      · split at h
        · rename_i op hop
          split at h
          · cases h
            exact ⟨_, _, _, rfl, hop, rfl, rfl⟩
          · exact ih h
        · exact ih h

/-! ## Brackets -/

/-- The search for a closing bracket passes over a text. -/
def Spans (s : List Char) : Prop :=
  ∀ depth rest, closeBracket? depth (s ++ rest) =
    (closeBracket? depth rest).map fun p => (s ++ p.1, p.2)

namespace Spans

variable {l r : List Char}

theorem nil : Spans [] := by
  intro depth rest
  cases h : closeBracket? depth rest <;> simp [h]

theorem append (hl : Spans l) (hr : Spans r) : Spans (l ++ r) := by
  intro depth rest
  rw [List.append_assoc, hl, hr, Option.map_map]
  simp [Function.comp_def]

theorem char (h : c ≠ '(' ∧ c ≠ ')') : Spans [c] := by
  intro depth rest
  rw [List.singleton_append, closeBracket?]
  · rfl
  · exact h.1
  · exact fun _ hc => h.2 hc
  · exact fun _ _ hc => h.2 hc

theorem cons (h : c ≠ '(' ∧ c ≠ ')') (hr : Spans r) : Spans (c :: r) := (char h).append hr

theorem inert {w : List Char} (h : ∀ c ∈ w, Inert c) : Spans w := by
  induction w with
  | nil => exact .nil
  | cons c w ih =>
    exact cons (h c List.mem_cons_self).2 (ih fun x hx => h x (List.mem_cons_of_mem _ hx))

theorem bracket (h : Spans s) : Spans ('(' :: (s ++ [')'])) := by
  intro depth rest
  have hshape : '(' :: (s ++ [')']) ++ rest = '(' :: (s ++ ')' :: rest) := by simp
  rw [hshape]
  show (closeBracket? (depth + 1) (s ++ ')' :: rest)).map _ = _
  rw [h]
  show (((closeBracket? depth rest).map _).map _).map _ = _
  simp [Function.comp_def]

end Spans

/-- The search for a closing bracket passes over derived text. -/
theorem Derives.spans (h : Derives .plain L s t) : Spans s := by
  induction h with
  | sum _ hop _ ihl ihr =>
    exact ihl.append (.cons (ne_bracket_of_mem (isKind_additive? _ _ hop)) ihr)
  | product _ hop _ ihl ihr =>
    exact ihl.append (.cons (ne_bracket_of_mem (isKind_multiplicative? _ _ hop)) ihr)
  | ofProduct _ ih | ofFactor _ ih | ofSigned _ ih | ofAtom _ ih => exact ih
  | percent _ hw ih => exact ih.append (.cons (by decide) (.inert (inert_of_blank hw)))
  | negative hw _ ih | positive hw _ ih =>
    exact (Spans.inert (inert_of_blank hw)).append (.cons (by decide) ih)
  | number hw hnumeral hv =>
    refine (Spans.inert (inert_of_blank hw)).append (.append ?_ (.inert (inert_of_blank hv)))
    rw [show Alphabet.plain.char = id from rfl, List.map_id]
    exact .inert (inert_of_numeral hnumeral)
  | @name w v n _ _ => exact n.elim
  | @bracket w s v t hw _ hv ih =>
    have hinner := ih.bracket.append (.inert (inert_of_blank hv))
    refine (Spans.inert (inert_of_blank hw)).append ?_
    simpa using hinner

/-- The text up to a closing bracket is what stands in front of it. -/
theorem closeBracket?_sound {depth : Nat} {rest : List Char} {p : List Char × List Char}
    (h : closeBracket? depth rest = some p) : rest = p.1 ++ ')' :: p.2 := by
  fun_induction closeBracket? depth rest generalizing p with
  | case1 => cases h
  | case2 rest =>
    cases h
    rfl
  | case3 depth rest ih | case4 depth rest ih | case5 depth c rest _ _ _ ih =>
    obtain ⟨q, hq, rfl⟩ := Option.map_eq_some_iff.1 h
    rw [ih hq]
    rfl

end Spreadsheet.Arithmetic
