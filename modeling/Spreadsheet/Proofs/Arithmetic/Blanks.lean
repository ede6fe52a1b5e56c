import Spreadsheet.Proofs.Arithmetic.Grammar
import Spreadsheet.Proofs.Text.Stripping

/-!
# Blanks around derived text

Blanks are free at both ends of derived text: a text that is derived is derived without them
(`strip`), and the blanks may be put back (`of_strip`).
-/

namespace Spreadsheet

/-! ## Blanks -/

namespace Arithmetic

open Text

variable {L : Level} {s : List Char} {t : Tree Empty}

/-- A text has no blanks but the plain one. -/
def PlainBlanks (s : List Char) : Prop := ∀ c ∈ s, isBlank c = true → c = ' '

theorem PlainBlanks.mono {r : List Char} (h : PlainBlanks s) (hr : r ⊆ s) : PlainBlanks r :=
  fun c hc => h c (hr hc)

theorem isBlank_of_blank {w : List Char} (h : Alphabet.plain.Blank w) :
    ∀ c ∈ w, isBlank c = true :=
  fun c hc => (h c hc).symm ▸ (by decide : isBlank ' ' = true)

/-- A stripped text has no blanks in front. -/
theorem Alphabet.Blank.front_eq_nil {cs w r : List Char} (hw : Alphabet.plain.Blank w)
    (h : stripChars cs = w ++ r) : w = [] := by
  cases w with
  | nil => rfl
  | cons x w =>
    have hhead : (stripChars cs).head? = some x := by rw [h, List.cons_append, List.head?_cons]
    have hblank := not_isBlank_of_head?_stripChars hhead
    rw [isBlank_of_blank hw x List.mem_cons_self] at hblank
    cases hblank

/-- A stripped text has no blanks at the end. -/
theorem Alphabet.Blank.back_eq_nil {cs r w : List Char} (hw : Alphabet.plain.Blank w)
    (h : stripChars cs = r ++ w) : w = [] := by
  rcases List.eq_nil_or_concat w with hnil | ⟨xs, x, hx⟩
  · exact hnil
  · have hlast : (stripChars cs).getLast? = some x := by simp [h, hx]
    have hblank := not_isBlank_of_getLast?_stripRight hlast
    rw [isBlank_of_blank hw x (by simp [hx])] at hblank
    cases hblank

theorem Numeral.not_isBlank {text whole fraction : List Char} (h : Numeral text whole fraction) :
    ∀ c ∈ text, isBlank c = false := by
  intro c hc
  rcases h.digit_or_point c hc with hdigit | rfl
  · exact isBlank_of_isDigit hdigit
  · decide

namespace Derives

theorem ne_nil {α ν : Type} {A : Alphabet α ν} {s : List α} {t : Tree ν} (h : Derives A L s t) :
    s ≠ [] := by
  rintro rfl
  have hdepth := h.depth_le_length
  cases t <;> simp [Tree.depth] at hdepth

/-! ### Taking blanks away -/

theorem dropWhile (h : Derives .plain L s t) : Derives .plain L (s.dropWhile isBlank) t := by
  induction h with
  | sum _ hop hr ih _ =>
    rw [List.dropWhile_append, if_neg (by simpa using ih.ne_nil)]
    exact .sum ih hop hr
  | product _ hop hr ih _ =>
    rw [List.dropWhile_append, if_neg (by simpa using ih.ne_nil)]
    exact .product ih hop hr
  | ofProduct _ ih => exact .ofProduct ih
  | ofFactor _ ih => exact .ofFactor ih
  | ofSigned _ ih => exact .ofSigned ih
  | ofAtom _ ih => exact .ofAtom ih
  | percent _ hw ih =>
    rw [List.dropWhile_append, if_neg (by simpa using ih.ne_nil)]
    exact .percent ih hw
  | negative hw hs _ =>
    rw [List.dropWhile_append_of_pos (isBlank_of_blank hw), List.dropWhile_cons_of_neg (by decide)]
    exact .negative (w := []) nofun hs
  | positive hw hs _ =>
    rw [List.dropWhile_append_of_pos (isBlank_of_blank hw), List.dropWhile_cons_of_neg (by decide)]
    exact .positive (w := []) nofun hs
  | @number w v text whole fraction hw hnumeral hv =>
    obtain ⟨x, xs, hx⟩ := List.exists_cons_of_ne_nil hnumeral.ne_nil
    have hblank : isBlank x = false := hnumeral.not_isBlank x (hx ▸ List.mem_cons_self)
    have hdrop : (text.map Alphabet.plain.char ++ v).dropWhile isBlank =
        text.map Alphabet.plain.char ++ v := by
      rw [hx]
      exact List.dropWhile_cons_of_neg (by simp [hblank])
    rw [List.dropWhile_append_of_pos (isBlank_of_blank hw), hdrop]
    exact .number (w := []) nofun hnumeral hv
  | @name w v n _ _ => exact n.elim
  | bracket hw hs hv _ =>
    rw [List.dropWhile_append_of_pos (isBlank_of_blank hw), List.dropWhile_cons_of_neg (by decide)]
    exact .bracket (w := []) nofun hs hv

theorem stripRight (h : Derives .plain L s t) : Derives .plain L (stripRight s) t := by
  have hcons : ∀ {c : Char} {r : List Char}, Text.stripRight r ≠ [] →
      Text.stripRight (c :: r) = c :: Text.stripRight r := by
    intro c r hr
    exact @stripRight_append_of_ne_nil [c] r hr
  induction h with
  | sum hl hop _ _ ih =>
    rw [stripRight_append_of_ne_nil (by rw [hcons ih.ne_nil]; simp), hcons ih.ne_nil]
    exact .sum hl hop ih
  | product hl hop _ _ ih =>
    rw [stripRight_append_of_ne_nil (by rw [hcons ih.ne_nil]; simp), hcons ih.ne_nil]
    exact .product hl hop ih
  | ofProduct _ ih => exact .ofProduct ih
  | ofFactor _ ih => exact .ofFactor ih
  | ofSigned _ ih => exact .ofSigned ih
  | ofAtom _ ih => exact .ofAtom ih
  | percent hs hw _ =>
    rw [stripRight_concat_of_not_blank (by decide) _ (isBlank_of_blank hw)]
    exact .percent (w := []) hs nofun
  | negative hw _ ih =>
    rw [stripRight_append_of_ne_nil (by rw [hcons ih.ne_nil]; simp), hcons ih.ne_nil]
    exact .negative hw ih
  | positive hw _ ih =>
    rw [stripRight_append_of_ne_nil (by rw [hcons ih.ne_nil]; simp), hcons ih.ne_nil]
    exact .positive hw ih
  | @number w v text whole fraction hw hnumeral hv =>
    obtain ⟨xs, x, hx⟩ := (List.eq_nil_or_concat text).resolve_left hnumeral.ne_nil
    have hblank : isBlank x = false := hnumeral.not_isBlank x (by simp [hx])
    have hstrip : Text.stripRight (w ++ (text.map Alphabet.plain.char ++ v)) =
        w ++ (text.map Alphabet.plain.char ++ []) := by
      have hshape : w ++ (text.map Alphabet.plain.char ++ v) =
          (w ++ xs.map Alphabet.plain.char) ++ x :: v := by simp [hx]
      rw [hshape, stripRight_concat_of_not_blank hblank _ (isBlank_of_blank hv)]
      simp [hx]
    rw [hstrip]
    exact .number hw hnumeral nofun
  | @name w v n _ _ => exact n.elim
  | @bracket w s v t hw hs hv _ =>
    have hshape : w ++ Alphabet.plain.char '(' :: (s ++ Alphabet.plain.char ')' :: v) =
        (w ++ '(' :: s) ++ ')' :: v := by simp
    have hstrip := stripRight_concat_of_not_blank (c := ')') (by decide) (w ++ '(' :: s)
      (isBlank_of_blank hv)
    rw [hshape, hstrip, List.append_assoc]
    exact .bracket (v := []) hw hs nofun

/-- Derived text is derived without the blanks at its ends. -/
theorem strip (h : Derives .plain L s t) : Derives .plain L (stripChars s) t :=
  h.dropWhile.stripRight

/-! ### Putting blanks back -/

theorem blank_append (h : Derives .plain L s t) {w : List Char} (hw : Alphabet.plain.Blank w) :
    Derives .plain L (w ++ s) t := by
  have happend : ∀ {v : List Char}, Alphabet.plain.Blank v → Alphabet.plain.Blank (w ++ v) :=
    fun hv c hc => (List.mem_append.1 hc).elim (hw c) (hv c)
  induction h with
  | sum _ hop hr ih _ =>
    rw [← List.append_assoc]
    exact .sum ih hop hr
  | product _ hop hr ih _ =>
    rw [← List.append_assoc]
    exact .product ih hop hr
  | ofProduct _ ih => exact .ofProduct ih
  | ofFactor _ ih => exact .ofFactor ih
  | ofSigned _ ih => exact .ofSigned ih
  | ofAtom _ ih => exact .ofAtom ih
  | percent _ hv ih =>
    rw [← List.append_assoc]
    exact .percent ih hv
  | negative hv hs _ =>
    rw [← List.append_assoc]
    exact .negative (happend hv) hs
  | positive hv hs _ =>
    rw [← List.append_assoc]
    exact .positive (happend hv) hs
  | number hv hnumeral hu =>
    rw [← List.append_assoc]
    exact .number (happend hv) hnumeral hu
  | @name _ _ n _ _ => exact n.elim
  | bracket hv hs hu _ =>
    rw [← List.append_assoc]
    exact .bracket (happend hv) hs hu

theorem append_blank (h : Derives .plain L s t) {w : List Char} (hw : Alphabet.plain.Blank w) :
    Derives .plain L (s ++ w) t := by
  have happend : ∀ {v : List Char}, Alphabet.plain.Blank v → Alphabet.plain.Blank (v ++ w) :=
    fun hv c hc => (List.mem_append.1 hc).elim (hv c) (hw c)
  induction h with
  | sum hl hop _ _ ih =>
    rw [List.append_assoc, List.cons_append]
    exact .sum hl hop ih
  | product hl hop _ _ ih =>
    rw [List.append_assoc, List.cons_append]
    exact .product hl hop ih
  | ofProduct _ ih => exact .ofProduct ih
  | ofFactor _ ih => exact .ofFactor ih
  | ofSigned _ ih => exact .ofSigned ih
  | ofAtom _ ih => exact .ofAtom ih
  | percent hs hv _ =>
    rw [List.append_assoc, List.cons_append]
    exact .percent hs (happend hv)
  | negative hv _ ih =>
    rw [List.append_assoc, List.cons_append]
    exact .negative hv ih
  | positive hv _ ih =>
    rw [List.append_assoc, List.cons_append]
    exact .positive hv ih
  | number hv hnumeral hu =>
    rw [List.append_assoc, List.append_assoc]
    exact .number hv hnumeral (happend hu)
  | @name _ _ n _ _ => exact n.elim
  | bracket hv hs hu _ =>
    rw [List.append_assoc, List.cons_append, List.append_assoc, List.cons_append]
    exact .bracket hv hs (happend hu)

/-- Plain blanks at the ends of a text do not matter. -/
theorem of_strip (hplain : PlainBlanks s)
    (h : Derives .plain L (stripChars s) t) : Derives .plain L s t := by
  obtain ⟨w, v, hs, hw, hv⟩ := exists_stripChars s
  have hblank : ∀ {u : List Char}, (∀ c ∈ u, c ∈ s) → (∀ c ∈ u, isBlank c = true) →
      Alphabet.plain.Blank u :=
    fun hmem hu c hc => hplain c (hmem c hc) (hu c hc)
  rw [hs]
  refine (h.append_blank (hblank (fun c hc => ?_) hv)).blank_append (hblank (fun c hc => ?_) hw)
  · rw [hs]
    exact List.mem_append_right _ (List.mem_append_right _ hc)
  · rw [hs]
    exact List.mem_append_left _ hc

end Derives

end Arithmetic

end Spreadsheet
