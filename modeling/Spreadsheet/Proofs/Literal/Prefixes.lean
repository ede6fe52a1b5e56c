import Spreadsheet.Literal

/-!
# Partial literals are cut anywhere

**Theorem (`isPartial_of_prefix`).** A text in front of a partial literal is a partial literal
itself. A literal is a partial one (`isPartial_of_isComplete`), so every text in front of a literal
is partial.

The grammar takes the parts of a partial literal off the front, one after another, and each part may
be missing. So the proof goes part by part, from the last one: a test that accepts the texts in
front of those it accepts still does so after it was made to take another part off first
(`PrefixClosed`).
-/

namespace Spreadsheet.Literal

open Text

/-- A test that accepts a text accepts all texts in front of it. -/
def PrefixClosed (p : List Char → Bool) : Prop :=
  ∀ front rest, p (front ++ rest) = true → p front = true

/-! ## The parts of a partial literal -/

theorem prefixClosed_atEnd : PrefixClosed atEnd := by
  intro front rest h
  match front, rest, h with
  | [], _, _ => rfl
  | [_], [], h => exact h

namespace PrefixClosed

variable {p : List Char → Bool}

theorem dropOptional (h : PrefixClosed p) (c : Char) :
    PrefixClosed fun cs => p (Literal.dropOptional c cs) := by
  intro front rest hp
  cases front with
  | nil => exact h [] _ hp
  | cons d front =>
    simp only [List.cons_append, Literal.dropOptional] at hp ⊢
    split
    · rename_i hd
      rw [if_pos hd] at hp
      exact h front rest hp
    · rename_i hd
      rw [if_neg hd] at hp
      exact h (d :: front) rest hp

theorem dropWhile (h : PrefixClosed p) (q : Char → Bool) :
    PrefixClosed fun cs => p (cs.dropWhile q) := by
  intro front rest hp
  induction front with
  | nil => exact h [] _ hp
  | cons d front ih =>
    simp only [List.cons_append, List.dropWhile_cons] at hp ⊢
    split
    · rename_i hd
      rw [if_pos hd] at hp
      exact ih hp
    · rename_i hd
      rw [if_neg hd] at hp
      exact h (d :: front) rest hp

/-- A fraction is taken off if there is a point. -/
theorem dropFraction (h : PrefixClosed p) (q : Char → Bool) :
    PrefixClosed fun cs => p (match cs with
      | '.' :: fraction => fraction.dropWhile q
      | _ => cs) := by
  intro front rest hp
  cases front with
  | nil => exact h [] _ hp
  | cons d front =>
    by_cases hd : d = '.'
    · subst hd
      exact h.dropWhile q front rest hp
    · simp only [List.cons_append] at hp ⊢
      split at hp
      · rename_i heq
        exact absurd (List.cons.inj heq).1 hd
      · split
        · rename_i heq
          exact absurd (List.cons.inj heq).1 hd
        · exact h (d :: front) rest hp

end PrefixClosed

/-! ## Partial literals -/

theorem prefixClosed_isPartialChars : PrefixClosed isPartialChars :=
  (((prefixClosed_atEnd.dropOptional '%').dropFraction isDigit).dropWhile isDigit).dropOptional '$'

/-- **A text in front of a partial literal is a partial literal.** -/
theorem isPartial_of_prefix {text front : String} (h : isPartial text = true)
    (hfront : front.toList <+: text.toList) : isPartial front = true := by
  obtain ⟨rest, hrest⟩ := hfront
  rw [isPartial, ← hrest] at h
  exact prefixClosed_isPartialChars front.toList rest h

/-- A literal is a partial one in which no part is missing. -/
theorem isPartial_of_isComplete {text : String} (h : isComplete text = true) :
    isPartial text = true := by
  unfold isComplete isCompleteChars isNumeralChars at h
  unfold isPartial isPartialChars
  obtain ⟨-, h⟩ := Bool.and_eq_true_iff.1 h
  dsimp only at h ⊢
  split at h
  · exact (Bool.and_eq_true_iff.1 h).2
  · exact h

end Spreadsheet.Literal
