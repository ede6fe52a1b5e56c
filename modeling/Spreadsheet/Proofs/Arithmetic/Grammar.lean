import Mathlib.Data.List.TakeWhile
import Spreadsheet.Arithmetic

/-!
# The grammar of expressions

    sum     → sum (+ | -) product | product
    product → product (* | /) factor | factor
    factor  → factor % | signed
    signed  → (+ | -) signed | atom
    atom    → number | name | ( sum )
    number  → digits [. digits*] | . digits

Blanks are free between the signs. So operators of one precedence associate to the left, and percent
signs bind weaker than the signs in front: `-5%` is the negative number, divided by a hundred.

The grammar is that of an alphabet in which names stand for numbers. Plain text has no names; the
names in the body of a formula are its references.
-/

namespace Spreadsheet.Arithmetic

open Text Number

/-! ## Trees -/

/-- A parsed expression. A number is told by the digits before and after its point. -/
inductive Tree (ν : Type) where
  | number (whole fraction : List Char)
  | name (n : ν)
  | bracket (inner : Tree ν)
  | negative (operand : Tree ν)
  | positive (operand : Tree ν)
  | percent (operand : Tree ν)
  | binary (left : Tree ν) (op : Operator) (right : Tree ν)

/-- The double nearest to the number with given digits before and after its point. -/
def decimalValue (whole fraction : List Char) : Float :=
  ofDecimal false (numeralValue (whole ++ fraction)) (-(fraction.length : Int))

namespace Tree

variable {ν : Type}

/-- The value of a tree whose names have given values. The left operand comes first. -/
def value (names : ν → Except EvaluationError Float) : Tree ν → Except EvaluationError Float
  | number whole fraction => .ok (decimalValue whole fraction)
  | name n => names n
  | bracket inner => inner.value names
  | negative operand => (operand.value names).map (- ·)
  | positive operand => operand.value names
  | percent operand => (operand.value names).map (· / 100)
  | binary left op right =>
    match left.value names with
    | .error e => .error e
    | .ok a =>
      match right.value names with
      | .error e => .error e
      | .ok b => op.apply a b

/-- How many nodes are nested. -/
def depth : Tree ν → Nat
  | number _ _ => 1
  | name _ => 1
  | bracket inner => inner.depth + 1
  | negative operand => operand.depth + 1
  | positive operand => operand.depth + 1
  | percent operand => operand.depth + 1
  | binary left _ right => max left.depth right.depth + 1

theorem error_of_map {x : Except EvaluationError Float} {f : Float → Float} {e : EvaluationError}
    (h : x.map f = .error e) : x = .error e := by
  cases x with
  | error e' => exact h
  | ok a => cases h

theorem ok_of_map {x : Except EvaluationError Float} {f : Float → Float} {v : Float}
    (h : x.map f = .ok v) : ∃ u, x = .ok u ∧ f u = v := by
  cases x with
  | error e => cases h
  | ok u => exact ⟨u, rfl, Except.ok.inj h⟩

theorem depth_pos (t : Tree ν) : 0 < t.depth := by
  cases t <;> simp [depth]

/-- A tree whose names have values has a value unless something is divided by zero. -/
theorem divisionByZero_of_value {names : ν → Except EvaluationError Float} {t : Tree ν}
    {e : EvaluationError} (hnames : ∀ n, ∃ x, names n = .ok x) (h : t.value names = .error e) :
    e = .divisionByZero := by
  induction t with
  | number whole fraction => cases h
  | name n =>
    obtain ⟨x, hx⟩ := hnames n
    rw [value, hx] at h
    cases h
  | bracket _ ih | positive _ ih => exact ih h
  | negative _ ih | percent _ ih => exact ih (error_of_map h)
  | binary left op right ihl ihr =>
    rw [value] at h
    cases hl : left.value names with
    | error e' =>
      rw [hl] at h
      cases h
      exact ihl hl
    | ok a =>
      cases hr : right.value names with
      | error e' =>
        rw [hl, hr] at h
        cases h
        exact ihr hr
      | ok b =>
        rw [hl, hr] at h
        cases op with
        | add | sub | mul => cases h
        | div =>
          simp only [Operator.apply] at h
          split at h
          · cases h
            rfl
          · cases h

end Tree

/-! ## Numerals -/

/-- A numeral with its digits before and after the point. One side may be missing, and then the
point may be missing too. -/
inductive Numeral : (text whole fraction : List Char) → Prop
  | whole {ds : List Char} : ds ≠ [] → (∀ c ∈ ds, isDigit c = true) → Numeral ds ds []
  | point {ds es : List Char} : ds ≠ [] ∨ es ≠ [] → (∀ c ∈ ds, isDigit c = true) →
      (∀ c ∈ es, isDigit c = true) → Numeral (ds ++ '.' :: es) ds es

/-- A digit is none of the characters that structure an expression. -/
theorem ne_of_isDigit {c d : Char} (h : isDigit c = true) (hd : isDigit d = false) : c ≠ d := by
  rintro rfl
  rw [h] at hd
  cases hd

namespace Numeral

variable {text whole fraction : List Char}

/-- A numeral consists of digits and points. -/
theorem digit_or_point (h : Numeral text whole fraction) :
    ∀ c ∈ text, isDigit c = true ∨ c = '.' := by
  cases h with
  | whole _ hds => exact fun c hc => .inl (hds c hc)
  | point _ hds hes =>
    intro c hc
    rcases List.mem_append.1 hc with hc | hc
    · exact .inl (hds c hc)
    · rcases List.mem_cons.1 hc with hc | hc
      · exact .inr hc
      · exact .inl (hes c hc)

/-- A numeral has no other characters. -/
theorem not_mem (h : Numeral text whole fraction) {c : Char} (hdigit : isDigit c = false)
    (hpoint : c ≠ '.') : c ∉ text := by
  intro hc
  rcases h.digit_or_point c hc with hc | hc
  · exact ne_of_isDigit hc hdigit rfl
  · exact hpoint hc

theorem ne_nil (h : Numeral text whole fraction) : text ≠ [] := by
  cases h with
  | whole hne _ => exact hne
  | point _ _ _ => simp

/-- What follows the digits in front, and the digits themselves. -/
theorem takeWhile_eq (h : Numeral text whole fraction) :
    text.takeWhile isDigit = whole ∧
      (text.dropWhile isDigit = [] ∧ fraction = [] ∨
        text.dropWhile isDigit = '.' :: fraction ∧ fraction.all isDigit = true ∧
          (whole ≠ [] ∨ fraction ≠ [])) := by
  cases h with
  | whole hne hds =>
    refine ⟨List.takeWhile_eq_self_iff.2 (by simpa using hds), .inl ⟨?_, rfl⟩⟩
    exact List.dropWhile_eq_nil_iff.2 (by simpa using hds)
  | point hne hds hes =>
    have hpoint : isDigit '.' = false := by decide
    refine ⟨?_, .inr ⟨?_, by simpa using hes, hne⟩⟩
    · rw [List.takeWhile_append_of_pos hds, List.takeWhile_cons_of_neg (by simp [hpoint]),
        List.append_nil]
    · rw [List.dropWhile_append_of_pos hds, List.dropWhile_cons_of_neg (by simp [hpoint])]

/-- A text is a numeral in one way only. -/
theorem unique {whole' fraction' : List Char} (h : Numeral text whole fraction)
    (h' : Numeral text whole' fraction') : whole = whole' ∧ fraction = fraction' := by
  obtain ⟨hwhole, hrest⟩ := h.takeWhile_eq
  obtain ⟨hwhole', hrest'⟩ := h'.takeWhile_eq
  refine ⟨hwhole.symm.trans hwhole', ?_⟩
  rcases hrest with ⟨hdrop, rfl⟩ | ⟨hdrop, -, -⟩
  · rcases hrest' with ⟨-, rfl⟩ | ⟨hdrop', -, -⟩
    · rfl
    · rw [hdrop] at hdrop'
      cases hdrop'
  · rcases hrest' with ⟨hdrop', -⟩ | ⟨hdrop', -, -⟩
    · rw [hdrop] at hdrop'
      cases hdrop'
    · rw [hdrop] at hdrop'
      exact (List.cons.inj hdrop').2

end Numeral

/-- The numbers that are read are the numerals, and each is read as the double nearest to it. -/
theorem number?_eq_some_iff {cs : List Char} {x : Float} :
    number? cs = some x ↔
      ∃ whole fraction, Numeral cs whole fraction ∧ decimalValue whole fraction = x := by
  constructor
  · intro h
    have hsplit := List.takeWhile_append_dropWhile (p := isDigit) (l := cs)
    have hwhole : ∀ c ∈ cs.takeWhile isDigit, isDigit c = true := fun c => List.mem_takeWhile_imp
    simp only [number?] at h
    split at h
    · rename_i hrest
      split at h
      · cases h
      · rename_i hne
        rw [hrest, List.append_nil] at hsplit
        refine ⟨cs.takeWhile isDigit, [], ?_, ?_⟩
        · have hnumeral := Numeral.whole (by simpa using hne) hwhole
          rwa [hsplit] at hnumeral ⊢
        · simpa [decimalValue] using h
    · rename_i fraction hrest
      split at h
      · rename_i hfraction
        rw [hrest] at hsplit
        simp only [Bool.and_eq_true, Bool.not_eq_true', Bool.and_eq_false_iff] at hfraction
        refine ⟨cs.takeWhile isDigit, fraction, ?_, by simpa [decimalValue] using h⟩
        have hnumeral := Numeral.point (by simpa using hfraction.2) hwhole
          (List.all_eq_true.1 hfraction.1)
        rwa [hsplit] at hnumeral
      · cases h
    · cases h
  · rintro ⟨whole, fraction, h, rfl⟩
    obtain ⟨hwhole, ⟨hdrop, rfl⟩ | ⟨hdrop, hall, hne⟩⟩ := h.takeWhile_eq
    · have hnil : whole ≠ [] := by
        have hsplit := List.takeWhile_append_dropWhile (p := isDigit) (l := cs)
        rw [hwhole, hdrop, List.append_nil] at hsplit
        exact hsplit ▸ h.ne_nil
      simp [number?, hwhole, hdrop, hnil, decimalValue]
    · have hne' : (whole.isEmpty && fraction.isEmpty) = false := by
        rcases hne with hne | hne <;> simp [hne]
      simp [number?, hwhole, hdrop, hall, hne', decimalValue]

/-! ## Derivations -/

/-- The symbols of an expression: characters, and names that stand for numbers. -/
structure Alphabet (α ν : Type) where
  char : Char → α
  name : ν → α

/-- The alphabet of plain text, which has no names. -/
def Alphabet.plain : Alphabet Char Empty := ⟨id, Empty.elim⟩

@[simp] theorem Alphabet.plain_char (c : Char) : Alphabet.plain.char c = c := rfl

/-- The syntactic categories, each of which includes the ones below it. -/
inductive Level where
  | sum
  | product
  | factor
  | signed
  | atom
  deriving DecidableEq

variable {α ν : Type}

/-- A text of blanks. -/
def Alphabet.Blank (A : Alphabet α ν) (w : List α) : Prop := ∀ x ∈ w, x = A.char ' '

/-- The texts of each category, with their trees. -/
inductive Derives (A : Alphabet α ν) : Level → List α → Tree ν → Prop
  | sum {l r : List α} {a b : Tree ν} {c : Char} {op : Operator} :
      Derives A .sum l a → additive? c = some op → Derives A .product r b →
      Derives A .sum (l ++ A.char c :: r) (.binary a op b)
  | ofProduct {s : List α} {t : Tree ν} : Derives A .product s t → Derives A .sum s t
  | product {l r : List α} {a b : Tree ν} {c : Char} {op : Operator} :
      Derives A .product l a → multiplicative? c = some op → Derives A .factor r b →
      Derives A .product (l ++ A.char c :: r) (.binary a op b)
  | ofFactor {s : List α} {t : Tree ν} : Derives A .factor s t → Derives A .product s t
  | percent {s w : List α} {t : Tree ν} :
      Derives A .factor s t → A.Blank w → Derives A .factor (s ++ A.char '%' :: w) (.percent t)
  | ofSigned {s : List α} {t : Tree ν} : Derives A .signed s t → Derives A .factor s t
  | negative {w s : List α} {t : Tree ν} :
      A.Blank w → Derives A .signed s t → Derives A .signed (w ++ A.char '-' :: s) (.negative t)
  | positive {w s : List α} {t : Tree ν} :
      A.Blank w → Derives A .signed s t → Derives A .signed (w ++ A.char '+' :: s) (.positive t)
  | ofAtom {s : List α} {t : Tree ν} : Derives A .atom s t → Derives A .signed s t
  | number {w v : List α} {text whole fraction : List Char} :
      A.Blank w → Numeral text whole fraction → A.Blank v →
      Derives A .atom (w ++ (text.map A.char ++ v)) (.number whole fraction)
  | name {w v : List α} {n : ν} :
      A.Blank w → A.Blank v → Derives A .atom (w ++ A.name n :: v) (.name n)
  | bracket {w s v : List α} {t : Tree ν} :
      A.Blank w → Derives A .sum s t → A.Blank v →
      Derives A .atom (w ++ A.char '(' :: (s ++ A.char ')' :: v)) (.bracket t)

/-- What a text with a given tree consists of. -/
def Spells (A : Alphabet α ν) (s : List α) : Tree ν → Prop
  | .number whole fraction => ∃ w text v, s = w ++ (text.map A.char ++ v) ∧ A.Blank w ∧
      Numeral text whole fraction ∧ A.Blank v
  | .name n => ∃ w v, s = w ++ A.name n :: v ∧ A.Blank w ∧ A.Blank v
  | .bracket t => ∃ w r v, s = w ++ A.char '(' :: (r ++ A.char ')' :: v) ∧ A.Blank w ∧
      Derives A .sum r t ∧ A.Blank v
  | .negative t => ∃ w r, s = w ++ A.char '-' :: r ∧ A.Blank w ∧ Derives A .signed r t
  | .positive t => ∃ w r, s = w ++ A.char '+' :: r ∧ A.Blank w ∧ Derives A .signed r t
  | .percent t => ∃ r w, s = r ++ A.char '%' :: w ∧ Derives A .factor r t ∧ A.Blank w
  | .binary a op b => ∃ l c r, s = l ++ A.char c :: r ∧
      (additive? c = some op ∧ Derives A .sum l a ∧ Derives A .product r b ∨
        multiplicative? c = some op ∧ Derives A .product l a ∧ Derives A .factor r b)

namespace Derives

variable {A : Alphabet α ν} {L : Level} {s : List α} {t : Tree ν}

theorem spells (h : Derives A L s t) : Spells A s t := by
  induction h with
  | sum hl hop hr => exact ⟨_, _, _, rfl, .inl ⟨hop, hl, hr⟩⟩
  | product hl hop hr => exact ⟨_, _, _, rfl, .inr ⟨hop, hl, hr⟩⟩
  | ofProduct _ ih | ofFactor _ ih | ofSigned _ ih | ofAtom _ ih => exact ih
  | percent hs hw => exact ⟨_, _, rfl, hs, hw⟩
  | negative hw hs | positive hw hs => exact ⟨_, _, rfl, hw, hs⟩
  | number hw hnumeral hv => exact ⟨_, _, _, rfl, hw, hnumeral, hv⟩
  | name hw hv => exact ⟨_, _, rfl, hw, hv⟩
  | bracket hw hs hv => exact ⟨_, _, _, rfl, hw, hs, hv⟩

/-- Each text of a category is a sum. -/
theorem isSum (h : Derives A L s t) : Derives A .sum s t := by
  cases L with
  | sum => exact h
  | product => exact .ofProduct h
  | factor => exact .ofProduct (.ofFactor h)
  | signed => exact .ofProduct (.ofFactor (.ofSigned h))
  | atom => exact .ofProduct (.ofFactor (.ofSigned (.ofAtom h)))

end Derives

/-- Each node of the tree takes a symbol at least. -/
theorem Derives.depth_le_length {A : Alphabet α ν} {L : Level} {s : List α} {t : Tree ν}
    (h : Derives A L s t) : t.depth ≤ s.length := by
  induction h with
  | sum _ _ _ ihl ihr | product _ _ _ ihl ihr =>
    simp only [Tree.depth, List.length_append, List.length_cons]
    omega
  | ofProduct _ ih | ofFactor _ ih | ofSigned _ ih | ofAtom _ ih => exact ih
  | percent _ _ ih | negative _ _ ih | positive _ _ ih | bracket _ _ _ ih =>
    simp only [Tree.depth, List.length_append, List.length_cons]
    omega
  | number _ hnumeral _ =>
    have := List.length_pos_iff.2 hnumeral.ne_nil
    simp only [Tree.depth, List.length_append, List.length_map]
    omega
  | name _ _ =>
    simp only [Tree.depth, List.length_append, List.length_cons]
    omega

end Spreadsheet.Arithmetic
