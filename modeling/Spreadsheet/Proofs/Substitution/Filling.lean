import Mathlib.Data.List.Chain
import Spreadsheet.Proofs.Arithmetic.Signs
import Spreadsheet.Proofs.Substitution.Tokens

/-!
# Tokens in place of names

Names are filled with tokens, and the text is read again. The text and what was there before have
the same trees, up to the tokens' own.

* `fill_derives`: what derives with names derives with tokens. Only a percentage is no atom: a sign
  before the name is then a sign inside the percentage, which has the same value.
* `derives_of_fill`: what derives with tokens derives with names, if no name stands next to a digit,
  a point or another name (`Apart`). Each step of the derivation cuts the text at a character
  (`cut_of_fill`), and a cut through a token leaves no derived text on either side.
-/

namespace Spreadsheet.Arithmetic

open Text

variable {ν : Type}

/-- The alphabet of characters and names. -/
def Alphabet.named (ν : Type) : Alphabet (Char ⊕ ν) ν := ⟨.inl, .inr⟩

@[simp] theorem Alphabet.named_char (c : Char) : (Alphabet.named ν).char c = .inl c := rfl

@[simp] theorem Alphabet.named_name (n : ν) : (Alphabet.named ν).name n = .inr n := rfl

/-! ## Filling -/

section Fill

variable (tokens : ν → List Char)

/-- The text with tokens in place of names. -/
def fill (w : List (Char ⊕ ν)) : List Char := w.flatMap (Sum.elim (fun c => [c]) tokens)

@[simp] theorem fill_nil : fill tokens [] = [] := rfl

@[simp] theorem fill_append (w w' : List (Char ⊕ ν)) :
    fill tokens (w ++ w') = fill tokens w ++ fill tokens w' := List.flatMap_append

@[simp] theorem fill_char (c : Char) (w : List (Char ⊕ ν)) :
    fill tokens (.inl c :: w) = c :: fill tokens w := rfl

@[simp] theorem fill_name (n : ν) (w : List (Char ⊕ ν)) :
    fill tokens (.inr n :: w) = tokens n ++ fill tokens w := rfl

@[simp] theorem fill_map_inl (cs : List Char) : fill tokens (cs.map .inl) = cs := by
  induction cs with
  | nil => rfl
  | cons c cs ih => rw [List.map_cons, fill_char, ih]

end Fill

variable {tokens : ν → List Char} {w : List (Char ⊕ ν)} {l r s : List Char} {c : Char} {L : Level}
  {t : Tree Empty}

/-- A filled text is cut at a character of the word. -/
inductive CutAt (tokens : ν → List Char) (c : Char) :
    List (Char ⊕ ν) → List Char → List Char → Prop
  | intro (w₁ w₂ : List (Char ⊕ ν)) :
      CutAt tokens c (w₁ ++ .inl c :: w₂) (fill tokens w₁) (fill tokens w₂)

/-- A filled text is cut at a character of a token. -/
inductive CutInside (tokens : ν → List Char) (c : Char) :
    List (Char ⊕ ν) → List Char → List Char → Prop
  | intro (w₁ w₂ : List (Char ⊕ ν)) {n : ν} {p q : List Char} : tokens n = p ++ c :: q →
      CutInside tokens c (w₁ ++ .inr n :: w₂) (fill tokens w₁ ++ p) (q ++ fill tokens w₂)

theorem CutAt.cons (h : CutAt tokens c w l r) (x : Char ⊕ ν) :
    CutAt tokens c (x :: w) (fill tokens [x] ++ l) r := by
  obtain ⟨w₁, w₂⟩ := h
  rw [← fill_append]
  exact .intro (x :: w₁) w₂

theorem CutInside.cons (h : CutInside tokens c w l r) (x : Char ⊕ ν) :
    CutInside tokens c (x :: w) (fill tokens [x] ++ l) r := by
  obtain ⟨w₁, w₂, hn⟩ := h
  rw [← List.append_assoc, ← fill_append]
  exact .intro (x :: w₁) w₂ hn

theorem cut_of_fill (h : fill tokens w = l ++ c :: r) :
    CutAt tokens c w l r ∨ CutInside tokens c w l r := by
  induction w generalizing l with
  | nil => simp at h
  | cons x w ih =>
    cases x with
    | inl d =>
      rw [fill_char] at h
      cases l with
      | nil =>
        obtain ⟨rfl, rfl⟩ := List.cons.inj h
        exact .inl (.intro [] w)
      | cons d' l =>
        rw [List.cons_append] at h
        obtain ⟨rfl, htail⟩ := List.cons.inj h
        exact (ih htail).imp (·.cons (.inl d)) (·.cons (.inl d))
    | inr n =>
      rw [fill_name] at h
      have hlater : ∀ {l'}, l = tokens n ++ l' → fill tokens w = l' ++ c :: r →
          CutAt tokens c (.inr n :: w) l r ∨ CutInside tokens c (.inr n :: w) l r := by
        rintro l' rfl hl'
        simpa using (ih hl').imp (·.cons (.inr n)) (·.cons (.inr n))
      rcases List.append_eq_append_iff.1 h with ⟨l', hl, hr⟩ | ⟨q, hn, hr⟩
      · exact hlater hl hr
      · cases q with
        | nil =>
          have hl : l = tokens n ++ [] := by simpa using hn.symm
          exact hlater hl hr.symm
        | cons d q =>
          obtain ⟨rfl, rfl⟩ := List.cons.inj hr
          exact .inr (.intro [] w hn)

/-- A word is text, or there is a name in it. -/
theorem eq_text_or_name (w : List (Char ⊕ ν)) :
    (∃ cs : List Char, w = cs.map .inl) ∨ ∃ w₁ n w₂, w = w₁ ++ .inr n :: w₂ := by
  induction w with
  | nil => exact .inl ⟨[], rfl⟩
  | cons x w ih =>
    cases x with
    | inr n => exact .inr ⟨[], n, w, rfl⟩
    | inl c =>
      rcases ih with ⟨cs, rfl⟩ | ⟨w₁, n, w₂, rfl⟩
      · exact .inl ⟨c :: cs, rfl⟩
      · exact .inr ⟨.inl c :: w₁, n, w₂, rfl⟩

/-- Each name has a token. -/
def Tokens (tokens : ν → List Char) : Prop := ∀ n, ∃ t, Token (tokens n) t

/-- The values of names are those of their tokens. -/
def valueOf (tokens : ν → List Char) (n : ν) : Except EvaluationError Float :=
  valueChars maxNesting (tokens n)

/-- Only blanks are filled to blanks. -/
theorem blank_of_fill (htokens : Tokens tokens) (h : Alphabet.plain.Blank (fill tokens w)) :
    (Alphabet.named ν).Blank w := by
  intro x hx
  obtain ⟨w₁, w₂, rfl⟩ := List.append_of_mem hx
  rw [fill_append] at h
  cases x with
  | inl c =>
    have hc : c = ' ' := h c (List.mem_append_right _ List.mem_cons_self)
    rw [hc]
    rfl
  | inr n =>
    obtain ⟨t, ht⟩ := htokens n
    obtain ⟨c, hc⟩ := List.exists_mem_of_ne_nil _ ht.ne_nil
    have hblank : c = ' ' :=
      h c (List.mem_append_right _ (List.mem_append_left _ hc))
    have hnot := ht.not_isBlank c hc
    rw [hblank] at hnot
    exact absurd hnot (by decide)

theorem fill_blank (tokens : ν → List Char) (h : (Alphabet.named ν).Blank w) :
    Alphabet.plain.Blank (fill tokens w) := by
  intro c hc
  obtain ⟨x, hx, hc⟩ := List.mem_flatMap.1 hc
  rw [h x hx] at hc
  exact List.mem_singleton.1 hc

/-! ## From names to tokens -/

/-- Text with a percent sign behind a signed number, and its value. -/
def Percentage (s : List Char) (x : Except EvaluationError Float) : Prop :=
  ∃ r v t, s = r ++ '%' :: v ∧ Alphabet.plain.Blank v ∧ Derives .plain .signed r t ∧
    x = (t.value Empty.elim).map (· / 100)

theorem map_neg_div (x : Except EvaluationError Float) :
    (x.map (- ·)).map (· / 100) = (x.map (· / 100)).map (- ·) := by
  cases x with
  | error e => rfl
  | ok a => exact congrArg Except.ok (Number.neg_divide a 100)

/-- A token between blanks is an atom or a percentage. -/
theorem Token.derives_or_percentage {token w v : List Char} (h : Token token t)
    (hw : Alphabet.plain.Blank w) (hv : Alphabet.plain.Blank v) :
    (∃ t', Derives .plain .atom (w ++ (token ++ v)) t' ∧
      t'.value Empty.elim = t.value Empty.elim) ∨
      Percentage (w ++ (token ++ v)) (t.value Empty.elim) := by
  cases h with
  | plain h => exact .inl ⟨_, (h.derives.append_blank hv).blank_append hw, rfl⟩
  | negative h =>
    have hbracket := Derives.bracket hw h.derives_negative.isSum hv
    exact .inl ⟨_, by simpa using hbracket, rfl⟩
  | @percent digits whole fraction h =>
    exact .inr ⟨w ++ digits, v, _, by simp, hv, .ofAtom (h.derives.blank_append hw), rfl⟩

/-- What derives with names derives with tokens, with a tree of the same value. A signed name may
become a percentage. -/
theorem fill_derives {u : Tree ν} (htokens : Tokens tokens) (h : Derives (.named ν) L w u) :
    (∃ t, Derives .plain L (fill tokens w) t ∧ t.value Empty.elim = u.value (valueOf tokens)) ∨
      (L = .signed ∨ L = .atom) ∧ Percentage (fill tokens w) (u.value (valueOf tokens)) := by
  induction h with
  | @sum _ _ _ _ _ op _ hop _ ihl ihr =>
    obtain ⟨a, ha, hva⟩ := ihl.resolve_right (by simp)
    obtain ⟨b, hb, hvb⟩ := ihr.resolve_right (by simp)
    refine .inl ⟨.binary a op b, ?_, ?_⟩
    · rw [fill_append]
      exact .sum ha hop hb
    · rw [Tree.value, Tree.value, hva, hvb]
  | @product _ _ _ _ _ op _ hop _ ihl ihr =>
    obtain ⟨a, ha, hva⟩ := ihl.resolve_right (by simp)
    obtain ⟨b, hb, hvb⟩ := ihr.resolve_right (by simp)
    refine .inl ⟨.binary a op b, ?_, ?_⟩
    · rw [fill_append]
      exact .product ha hop hb
    · rw [Tree.value, Tree.value, hva, hvb]
  | ofProduct _ ih =>
    obtain ⟨t, ht, hv⟩ := ih.resolve_right (by simp)
    exact .inl ⟨t, .ofProduct ht, hv⟩
  | ofFactor _ ih =>
    obtain ⟨t, ht, hv⟩ := ih.resolve_right (by simp)
    exact .inl ⟨t, .ofFactor ht, hv⟩
  | percent _ hw ih =>
    obtain ⟨t, ht, hv⟩ := ih.resolve_right (by simp)
    refine .inl ⟨.percent t, ?_, ?_⟩
    · rw [fill_append]
      exact .percent ht (fill_blank tokens hw)
    · rw [Tree.value, Tree.value, hv]
  | ofSigned _ ih =>
    rcases ih with ⟨t, ht, hv⟩ | ⟨-, r, v, t, hs, hblank, ht, hv⟩
    · exact .inl ⟨t, .ofSigned ht, hv⟩
    · exact .inl ⟨.percent t, hs ▸ .percent (.ofSigned ht) hblank, hv.symm⟩
  | @negative w _ _ hw _ ih =>
    have hw := fill_blank tokens hw
    rw [fill_append, Alphabet.named_char, fill_char]
    rcases ih with ⟨t, ht, hv⟩ | ⟨-, r, v, t, hs, hblank, ht, hv⟩
    · exact .inl ⟨.negative t, .negative hw ht, by rw [Tree.value, Tree.value, hv]⟩
    · refine .inr ⟨.inl rfl, fill tokens w ++ '-' :: r, v, .negative t, ?_, hblank,
        .negative hw ht, ?_⟩
      · rw [hs, List.append_assoc, List.cons_append]
      · rw [Tree.value, Tree.value, hv, map_neg_div]
  | @positive w _ _ hw _ ih =>
    have hw := fill_blank tokens hw
    rw [fill_append, Alphabet.named_char, fill_char]
    rcases ih with ⟨t, ht, hv⟩ | ⟨-, r, v, t, hs, hblank, ht, hv⟩
    · exact .inl ⟨.positive t, .positive hw ht, hv⟩
    · refine .inr ⟨.inl rfl, fill tokens w ++ '+' :: r, v, .positive t, ?_, hblank,
        .positive hw ht, hv⟩
      rw [hs, List.append_assoc, List.cons_append]
  | ofAtom _ ih =>
    rcases ih with ⟨t, ht, hv⟩ | ⟨-, hpercentage⟩
    · exact .inl ⟨t, .ofAtom ht, hv⟩
    · exact .inr ⟨.inl rfl, hpercentage⟩
  | number hw hnumeral hv =>
    have hderives := Derives.number (fill_blank tokens hw) hnumeral
      (fill_blank tokens hv)
    exact .inl ⟨_, by simpa [Alphabet.plain, Alphabet.named] using hderives, rfl⟩
  | @name w v n hw hv =>
    have hw := fill_blank tokens hw
    have hv := fill_blank tokens hv
    obtain ⟨t, ht⟩ := htokens n
    have hvalue : t.value Empty.elim = valueOf tokens n := ht.value.symm
    rw [fill_append, Alphabet.named_name, fill_name, Tree.value, ← hvalue]
    exact (ht.derives_or_percentage hw hv).imp_right fun h => ⟨.inr rfl, h⟩
  | bracket hw _ hv ih =>
    obtain ⟨t, ht, hvalue⟩ := ih.resolve_right (by simp)
    have hderives := Derives.bracket (fill_blank tokens hw) ht
      (fill_blank tokens hv)
    exact .inl ⟨.bracket t, by simpa using hderives, hvalue⟩

/-! ## From tokens to names -/

/-- Neighbours that cannot merge into one number: no name stands next to a digit, a point or another
name. -/
def Apart : Char ⊕ ν → Char ⊕ ν → Prop
  | .inl _, .inl _ => True
  | .inl c, .inr _ => isDigit c = false ∧ c ≠ '.'
  | .inr _, .inl c => isDigit c = false ∧ c ≠ '.'
  | .inr _, .inr _ => False

/-- Texts without blanks that stand between blanks in one text are the same. -/
theorem align {v x u a y b : List Char} (h : v ++ (x ++ u) = a ++ (y ++ b))
    (hv : ∀ c ∈ v, isBlank c = true) (hu : ∀ c ∈ u, isBlank c = true)
    (hx : ∀ c ∈ x, isBlank c = false) (hy : ∀ c ∈ y, isBlank c = false) (hne : y ≠ [])
    (ha : ∀ c ∈ a.getLast?, isBlank c = true) (hb : ∀ c ∈ b.head?, isBlank c = true) :
    a = v ∧ y = x ∧ b = u := by
  have hno : ∀ {c : Char}, isBlank c = true → isBlank c = false → False := by
    intro c h h'
    rw [h] at h'
    cases h'
  obtain ⟨d, y', rfl⟩ := List.exists_cons_of_ne_nil hne
  have hd := hy d List.mem_cons_self
  -- The blanks in front end where the second text begins.
  have hfront : a = v := by
    rcases List.append_eq_append_iff.1 h with ⟨l, rfl, hrest⟩ | ⟨l, rfl, hrest⟩
    · rcases List.append_eq_append_iff.1 hrest with ⟨l', -, rfl⟩ | ⟨l', rfl, -⟩
      · exact (hno (hu d (by simp)) hd).elim
      · rcases List.eq_nil_or_concat l with rfl | ⟨l, z, rfl⟩
        · rw [List.append_nil]
        · exact (hno (ha z (by simp)) (hx z (by simp))).elim
    · cases l with
      | nil => rw [List.append_nil]
      | cons z l =>
        obtain ⟨rfl, -⟩ := List.cons.inj hrest
        exact (hno (hv d (by simp)) hd).elim
  rw [hfront, List.append_cancel_left_eq] at h
  refine ⟨hfront, ?_⟩
  rcases List.append_eq_append_iff.1 h with ⟨l, hl, rfl⟩ | ⟨l, rfl, hl⟩
  · cases l with
    | nil => exact ⟨by simpa using hl, rfl⟩
    | cons z l => exact (hno (hu z (by simp)) (hy z (by simp [hl]))).elim
  · cases l with
    | nil => exact ⟨(List.append_nil _).symm, by simpa using hl⟩
    | cons z l => exact (hno (hb z (by simp [hl])) (hx z (by simp))).elim

/-- Derived text does not end in an opening bracket. -/
theorem Derives.ne_concat_bracket (h : Derives .plain L s t) (l : List Char) : s ≠ l ++ ['('] := by
  rintro rfl
  have hends := h.endsOperand_append []
  rw [List.reverse_append, List.append_nil] at hends
  rw [show ['('].reverse ++ l.reverse = '(' :: l.reverse from rfl,
    endsOperand_of_mem (by decide)] at hends
  cases hends

theorem Alphabet.Blank.ne_concat_bracket (h : Alphabet.plain.Blank s) (l : List Char) :
    s ≠ l ++ ['('] := by
  rintro rfl
  exact absurd (h '(' (by simp)) (by decide)

/-- An operator is a character of the word: the one in a token stands behind a bracket. -/
theorem cut_operator (htokens : Tokens tokens) (hc : c ∈ operators)
    (hl : ∀ l', l ≠ l' ++ ['(']) (h : fill tokens w = l ++ c :: r) : CutAt tokens c w l r := by
  rcases cut_of_fill h with hcut | ⟨w₁, w₂, hn⟩
  · exact hcut
  · obtain ⟨t, ht⟩ := htokens _
    rw [hn] at ht
    exact absurd (by rw [ht.operator hc]) (hl (fill tokens w₁))

theorem isBlank_of_apart {c : Char} (h : isDigit c = false ∧ c ≠ '.')
    (hc : (isDigit c = true ∨ c = '.') ∨ isBlank c = true) : isBlank c = true := by
  rcases hc with (hdigit | hpoint) | hblank
  · exact absurd h.1 (by simp [hdigit])
  · exact absurd hpoint h.2
  · exact hblank

/-- Among digits, points and blanks it is a blank that stands before a name. -/
theorem isBlank_before {w₂ : List (Char ⊕ ν)} {n : ν} (hw : (w ++ .inr n :: w₂).IsChain Apart)
    (hchars : ∀ c ∈ fill tokens w, (isDigit c = true ∨ c = '.') ∨ isBlank c = true) :
    ∀ c ∈ (fill tokens w).getLast?, isBlank c = true := by
  rcases List.eq_nil_or_concat' w with rfl | ⟨w₁, x, rfl⟩
  · simp
  · have hx : Apart x (.inr n) := by
      rw [List.append_assoc] at hw
      exact (List.isChain_append_cons_cons.1 hw).2.1
    cases x with
    | inr m => exact hx.elim
    | inl d => simpa using isBlank_of_apart hx (hchars d (by simp))

/-- Among digits, points and blanks it is a blank that stands behind a name. -/
theorem isBlank_behind {w₁ : List (Char ⊕ ν)} {n : ν} (hw : (w₁ ++ .inr n :: w).IsChain Apart)
    (hchars : ∀ c ∈ fill tokens w, (isDigit c = true ∨ c = '.') ∨ isBlank c = true) :
    ∀ c ∈ (fill tokens w).head?, isBlank c = true := by
  cases w with
  | nil => simp
  | cons x w =>
    have hx : Apart (.inr n) x := (List.isChain_append_cons_cons.1 hw).2.1
    cases x with
    | inr m => exact hx.elim
    | inl d => simpa using isBlank_of_apart hx (hchars d (by simp))

theorem Numeral.digit_point_or_blank {v u text whole fraction : List Char}
    (h : Numeral text whole fraction) (hv : Alphabet.plain.Blank v) (hu : Alphabet.plain.Blank u) :
    ∀ c ∈ v ++ (text ++ u), (isDigit c = true ∨ c = '.') ∨ isBlank c = true := by
  intro c hc
  simp only [List.mem_append] at hc
  rcases hc with hc | hc | hc
  · exact .inr (isBlank_of_blank hv c hc)
  · exact .inl (h.digit_or_point c hc)
  · exact .inr (isBlank_of_blank hu c hc)

/-- A number comes from a number or from a name. -/
theorem number_of_fill {v u text whole fraction : List Char} (htokens : Tokens tokens)
    (hw : w.IsChain Apart) (hv : Alphabet.plain.Blank v) (hnumeral : Numeral text whole fraction)
    (hu : Alphabet.plain.Blank u) (h : fill tokens w = v ++ (text ++ u)) :
    ∃ u : Tree ν, Derives (.named ν) .atom w u ∧
      u.value (valueOf tokens) = .ok (decimalValue whole fraction) := by
  rcases eq_text_or_name w with ⟨cs, rfl⟩ | ⟨w₁, n, w₂, rfl⟩
  · rw [fill_map_inl] at h
    subst h
    refine ⟨.number whole fraction, ?_, rfl⟩
    have hblank : ∀ {cs : List Char}, Alphabet.plain.Blank cs →
        (Alphabet.named ν).Blank (cs.map .inl) := by
      intro cs hcs x hx
      obtain ⟨c, hc, rfl⟩ := List.mem_map.1 hx
      exact congrArg Sum.inl (hcs c hc)
    have hderives := Derives.number (hblank hv) hnumeral (hblank hu)
    simpa [Alphabet.named] using hderives
  · obtain ⟨t, ht⟩ := htokens n
    have hchars : ∀ c ∈ fill tokens (w₁ ++ .inr n :: w₂),
        (isDigit c = true ∨ c = '.') ∨ isBlank c = true :=
      fun c hc => hnumeral.digit_point_or_blank hv hu c (h ▸ hc)
    rw [fill_append, fill_name] at h hchars
    obtain ⟨hfront, htext, hback⟩ := align h.symm (isBlank_of_blank hv) (isBlank_of_blank hu)
      hnumeral.not_isBlank ht.not_isBlank ht.ne_nil
      (isBlank_before hw fun c hc => hchars c (by simp [hc]))
      (isBlank_behind hw fun c hc => hchars c (by simp [hc]))
    refine ⟨.name n,
      .name (blank_of_fill htokens (hfront ▸ hv)) (blank_of_fill htokens (hback ▸ hu)), ?_⟩
    rw [Tree.value, valueOf, htext]
    exact (Token.plain hnumeral).value

/-- A text with a numeral at its end has a digit or a point as its last character. -/
theorem Numeral.ne_append_blank {l digits whole fraction x v : List Char} {d : Char}
    (h : Numeral digits whole fraction) (hdigit : isDigit d = false) (hpoint : d ≠ '.')
    (hv : Alphabet.plain.Blank v) : l ++ digits ≠ x ++ d :: v := by
  intro heq
  obtain ⟨ds, e, rfl⟩ := (List.eq_nil_or_concat' digits).resolve_left h.ne_nil
  have hlast := congrArg List.getLast? heq
  rw [← List.append_assoc, List.getLast?_concat,
    List.getLast?_append_of_ne_nil _ (List.cons_ne_nil _ _)] at hlast
  have hmem : e ∈ ds ++ [e] := by simp
  rcases List.mem_cons.1 (List.mem_of_getLast? hlast.symm) with rfl | hblank
  · exact absurd hmem (h.not_mem hdigit hpoint)
  · obtain rfl : e = ' ' := hv e hblank
    exact absurd hmem (h.not_mem (by decide) (by decide))

/-- A factor with a numeral at its end is a signed number. -/
theorem Derives.isSigned_of_numeral {digits whole fraction : List Char}
    (h : Derives .plain .factor (l ++ digits) t) (hnumeral : Numeral digits whole fraction) :
    Derives .plain .signed (l ++ digits) t := by
  generalize hs : l ++ digits = s at h
  cases h with
  | ofSigned h => exact h
  | percent _ hv => exact (hnumeral.ne_append_blank (d := '%') (by decide) (by decide) hv hs).elim

/-- A sign in front of a numeral is one of the word before the numeral. -/
theorem cut_sign {v digits whole fraction : List Char} (htokens : Tokens tokens)
    (hnumeral : Numeral digits whole fraction) (hc : c ∈ operators) (hv : Alphabet.plain.Blank v)
    (h : fill tokens w ++ digits = v ++ c :: r) :
    ∃ r', CutAt tokens c w v r' ∧ r = r' ++ digits := by
  have hnot : Sum.inl c ∉ digits.map (Sum.inl : Char → Char ⊕ ν) := by
    intro hmem
    obtain ⟨d, hd, heq⟩ := List.mem_map.1 hmem
    exact (inert_of_numeral hnumeral d hd).1 (Sum.inl.inj heq ▸ hc)
  rw [← fill_map_inl tokens digits, ← fill_append] at h
  generalize heq : w ++ digits.map Sum.inl = w' at h
  obtain ⟨w₁, w₂⟩ := cut_operator htokens hc hv.ne_concat_bracket h
  rcases List.append_eq_append_iff.1 heq with ⟨l, -, hl⟩ | ⟨l, rfl, hl⟩
  · exact absurd (hl ▸ List.mem_append_right l List.mem_cons_self) hnot
  · cases l with
    | nil =>
      rw [List.nil_append] at hl
      exact absurd (hl ▸ List.mem_cons_self) hnot
    | cons x l =>
      rw [List.cons_append] at hl
      obtain ⟨rfl, rfl⟩ := List.cons.inj hl
      exact ⟨_, .intro w₁ l, by rw [fill_append, fill_map_inl]⟩

/-- A signed numeral with a percent sign behind comes from a signed name. -/
theorem percentage_of_fill {n : ν} {digits whole fraction : List Char} {v : List (Char ⊕ ν)}
    (htokens : Tokens tokens) (hnumeral : Numeral digits whole fraction)
    (hn : tokens n = digits ++ ['%']) (hv : (Alphabet.named ν).Blank v)
    (h : Derives .plain L s t) (hL : L = .signed) (hs : s = fill tokens w ++ digits)
    (hw : (w ++ .inr n :: v).IsChain Apart) :
    ∃ u : Tree ν, Derives (.named ν) .signed (w ++ .inr n :: v) u ∧
      u.value (valueOf tokens) = (t.value Empty.elim).map (· / 100) := by
  induction h generalizing w with
  | negative hblank _ ih =>
    obtain ⟨_, ⟨w₁, w₂⟩, hr⟩ := cut_sign htokens hnumeral (by decide) hblank hs.symm
    rw [List.append_assoc, List.cons_append] at hw ⊢
    obtain ⟨u, hu, hvalue⟩ := ih rfl hr hw.right_of_append.tail
    refine ⟨.negative u, .negative (blank_of_fill htokens hblank) hu, ?_⟩
    rw [Tree.value, Tree.value, hvalue, map_neg_div]
  | positive hblank _ ih =>
    obtain ⟨_, ⟨w₁, w₂⟩, hr⟩ := cut_sign htokens hnumeral (by decide) hblank hs.symm
    rw [List.append_assoc, List.cons_append] at hw ⊢
    obtain ⟨u, hu, hvalue⟩ := ih rfl hr hw.right_of_append.tail
    exact ⟨.positive u, .positive (blank_of_fill htokens hblank) hu, hvalue⟩
  | ofAtom h =>
    cases h with
    | @number v₀ u₀ text whole' fraction' hv₀ hnumeral' hu₀ =>
      rw [show Alphabet.plain.char = id from rfl, List.map_id] at hs
      have hchars : ∀ c ∈ fill tokens w, (isDigit c = true ∨ c = '.') ∨ isBlank c = true :=
        fun c hc => hnumeral'.digit_point_or_blank hv₀ hu₀ c (hs ▸ List.mem_append_left _ hc)
      obtain ⟨hfront, rfl, -⟩ := align (b := []) (by rw [hs, List.append_nil])
        (isBlank_of_blank hv₀) (isBlank_of_blank hu₀) hnumeral'.not_isBlank hnumeral.not_isBlank
        hnumeral.ne_nil (isBlank_before hw hchars) (by simp)
      obtain ⟨rfl, rfl⟩ := hnumeral.unique hnumeral'
      refine ⟨.name n, .ofAtom (.name (blank_of_fill htokens (hfront ▸ hv₀)) hv), ?_⟩
      show valueChars maxNesting (tokens n) = _
      rw [hn]
      exact (Token.percent hnumeral).value
    | @name v₀ u₀ m _ _ => exact m.elim
    | @bracket v₀ s₀ u₀ t _ _ hu₀ =>
      refine (hnumeral.ne_append_blank (l := fill tokens w) (x := v₀ ++ '(' :: s₀) (d := ')')
        (by decide) (by decide) hu₀ ?_).elim
      rw [← hs]
      simp
  | _ => cases hL

/-- A closing bracket is a character of the word: tokens hold whole pairs. -/
theorem cut_closeBracket? {depth : Nat} {p q : List Char} (htokens : Tokens tokens)
    (h : closeBracket? depth (fill tokens w) = some (p, q)) : CutAt tokens ')' w p q := by
  induction w generalizing depth p q with
  | nil => cases h
  | cons x w ih =>
    have hlater : ∀ {depth'}, (closeBracket? depth' (fill tokens w)).map
        (fun r => (fill tokens [x] ++ r.1, r.2)) = some (p, q) → CutAt tokens ')' (x :: w) p q := by
      intro depth' hmap
      obtain ⟨⟨p', q'⟩, hclose, heq⟩ := Option.map_eq_some_iff.1 hmap
      obtain ⟨rfl, rfl⟩ := Prod.mk.inj heq
      exact (ih hclose).cons x
    cases x with
    | inr n =>
      obtain ⟨t, ht⟩ := htokens n
      rw [fill_name, ht.derives.spans] at h
      exact hlater (by simpa using h)
    | inl c =>
      rw [fill_char] at h
      unfold closeBracket? at h
      split at h
      · cases h
      · rename_i heq
        cases h
        obtain ⟨rfl, rfl⟩ := List.cons.inj heq
        exact .intro [] w
      all_goals
        rename_i heq
        obtain ⟨rfl, rfl⟩ := List.cons.inj heq
        exact hlater h

/-- A pair of brackets comes from a pair in the word or from a negative number. -/
theorem bracket_of_fill {v u : List Char} {t : Tree Empty} (htokens : Tokens tokens)
    (hw : w.IsChain Apart) (hv : Alphabet.plain.Blank v) (hs : Derives .plain .sum s t)
    (hu : Alphabet.plain.Blank u) (h : fill tokens w = v ++ '(' :: (s ++ ')' :: u))
    (ih : ∀ w : List (Char ⊕ ν), s = fill tokens w → w.IsChain Apart →
      ∃ u : Tree ν, Derives (.named ν) .sum w u ∧
        u.value (valueOf tokens) = t.value Empty.elim) :
    ∃ u : Tree ν, Derives (.named ν) .atom w u ∧
      u.value (valueOf tokens) = (Tree.bracket t).value Empty.elim := by
  have hclose : ∀ {s u : List Char} {t : Tree Empty} {L : Level}, Derives .plain L s t →
      closeBracket? 0 (s ++ ')' :: u) = some (s, u) := by
    intro s u t L hs
    rw [hs.spans, closeBracket?]
    simp
  rcases cut_of_fill h with hcut | hcut
  · generalize hr : s ++ ')' :: u = r at hcut
    obtain ⟨w₁, w₂⟩ := hcut
    obtain ⟨w₃, w₄⟩ := cut_closeBracket? htokens (hr ▸ hclose hs)
    obtain ⟨b, hb, hvalue⟩ := ih w₃ rfl hw.right_of_append.tail.left_of_append
    exact ⟨.bracket b, .bracket (blank_of_fill htokens hv) hb (blank_of_fill htokens hu), hvalue⟩
  · generalize hr : s ++ ')' :: u = r at hcut
    obtain ⟨w₁, w₂, hn⟩ := hcut
    rename_i n p q
    obtain ⟨t', ht'⟩ := htokens n
    have htoken := ht'
    rw [hn] at htoken
    obtain ⟨rfl, digits, whole, fraction, hnumeral, rfl, rfl⟩ := htoken.opening_bracket
    -- Both texts close the bracket, so they are the same.
    have hsame : some (s, u) = some ('-' :: digits, fill tokens w₂) := by
      rw [← hclose hs, ← hclose hnumeral.derives_negative, hr]
      simp
    obtain ⟨rfl, rfl⟩ := Prod.mk.inj (Option.some.inj hsame)
    rw [List.append_nil] at hv
    refine ⟨.name n, .name (blank_of_fill htokens hv) (blank_of_fill htokens hu), ?_⟩
    rw [hs.reads.unique hnumeral.derives_negative.reads]
    exact ht'.value

/-- What derives with tokens derives with names that stand apart, with a tree of the same value. -/
theorem derives_of_fill (htokens : Tokens tokens) (h : Derives .plain L s t)
    (hs : s = fill tokens w) (hw : w.IsChain Apart) :
    ∃ u : Tree ν, Derives (.named ν) L w u ∧
      u.value (valueOf tokens) = t.value Empty.elim := by
  induction h generalizing w with
  | sum hl hop _ ihl ihr =>
    obtain ⟨w₁, w₂⟩ := cut_operator htokens (isKind_additive? _ _ hop) hl.ne_concat_bracket hs.symm
    obtain ⟨a, ha, hva⟩ := ihl rfl hw.left_of_append
    obtain ⟨b, hb, hvb⟩ := ihr rfl hw.right_of_append.tail
    exact ⟨_, .sum ha hop hb, by rw [Tree.value, Tree.value, hva, hvb]⟩
  | product hl hop _ ihl ihr =>
    obtain ⟨w₁, w₂⟩ :=
      cut_operator htokens (isKind_multiplicative? _ _ hop) hl.ne_concat_bracket hs.symm
    obtain ⟨a, ha, hva⟩ := ihl rfl hw.left_of_append
    obtain ⟨b, hb, hvb⟩ := ihr rfl hw.right_of_append.tail
    exact ⟨_, .product ha hop hb, by rw [Tree.value, Tree.value, hva, hvb]⟩
  | ofProduct _ ih =>
    obtain ⟨u, hu, hvalue⟩ := ih hs hw
    exact ⟨u, .ofProduct hu, hvalue⟩
  | ofFactor _ ih =>
    obtain ⟨u, hu, hvalue⟩ := ih hs hw
    exact ⟨u, .ofFactor hu, hvalue⟩
  | ofSigned _ ih =>
    obtain ⟨u, hu, hvalue⟩ := ih hs hw
    exact ⟨u, .ofSigned hu, hvalue⟩
  | ofAtom _ ih =>
    obtain ⟨u, hu, hvalue⟩ := ih hs hw
    exact ⟨u, .ofAtom hu, hvalue⟩
  | negative hv _ ih =>
    obtain ⟨w₁, w₂⟩ := cut_operator htokens (by decide) hv.ne_concat_bracket hs.symm
    obtain ⟨u, hu, hvalue⟩ := ih rfl hw.right_of_append.tail
    exact ⟨_, .negative (blank_of_fill htokens hv) hu, by rw [Tree.value, Tree.value, hvalue]⟩
  | positive hv _ ih =>
    obtain ⟨w₁, w₂⟩ := cut_operator htokens (by decide) hv.ne_concat_bracket hs.symm
    obtain ⟨u, hu, hvalue⟩ := ih rfl hw.right_of_append.tail
    exact ⟨_, .positive (blank_of_fill htokens hv) hu, hvalue⟩
  | percent hs' hv ih =>
    rcases cut_of_fill hs.symm with ⟨w₁, w₂⟩ | ⟨w₁, w₂, hn⟩
    · obtain ⟨u, hu, hvalue⟩ := ih rfl hw.left_of_append
      exact ⟨_, .percent hu (blank_of_fill htokens hv), by rw [Tree.value, Tree.value, hvalue]⟩
    · obtain ⟨t', ht'⟩ := htokens _
      rw [hn] at ht'
      obtain ⟨rfl, whole, fraction, hnumeral, rfl⟩ := ht'.percent_sign
      -- The sign is the token's, so what stands before it is a signed number.
      obtain ⟨u, hu, hvalue⟩ := percentage_of_fill htokens hnumeral hn (blank_of_fill htokens hv)
        (hs'.isSigned_of_numeral hnumeral) rfl rfl hw
      exact ⟨u, .ofSigned hu, hvalue⟩
  | number hv hnumeral hu =>
    refine number_of_fill htokens hw hv hnumeral hu ?_
    rw [← hs, show Alphabet.plain.char = id from rfl, List.map_id]
  | @name _ _ n _ _ => exact n.elim
  | bracket hv hs' hu ih =>
    exact bracket_of_fill htokens hw hv hs' hu hs.symm fun w => ih

end Spreadsheet.Arithmetic
