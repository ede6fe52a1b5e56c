/-!
# Surrogates

A surrogate is a code point of the range `0xd800` to `0xdfff`. A pair of them, one of the upper half
and one of the lower, stands for one character; a surrogate alone is no character. Main statement:
`isSurrogate_toNat`, no character is a surrogate.
-/

namespace Spreadsheet.Text

/-- Whether a code point is the first half of a pair. -/
def isHighSurrogate (n : Nat) : Bool := 0xd800 ≤ n && n < 0xdc00

/-- Whether a code point is the second half of a pair. -/
def isLowSurrogate (n : Nat) : Bool := 0xdc00 ≤ n && n < 0xe000

/-- Whether a code point is no character. -/
def isSurrogate (n : Nat) : Bool := isHighSurrogate n || isLowSurrogate n

/-- The code point of the character for which a pair stands. -/
def pairCode (high low : Nat) : Nat := 0x10000 + (high - 0xd800) * 0x400 + (low - 0xdc00)

theorem isSurrogate_iff {n : Nat} : isSurrogate n ↔ 0xd800 ≤ n ∧ n < 0xe000 := by
  simp only [isSurrogate, isHighSurrogate, isLowSurrogate, Bool.or_eq_true, Bool.and_eq_true,
    decide_eq_true_eq]
  omega

theorem isSurrogate_toNat (c : Char) : isSurrogate c.toNat = false := by
  rw [Bool.eq_false_iff, Ne, isSurrogate_iff]
  rcases c.valid with h | ⟨h, -⟩
  · intro hs
    exact absurd (show c.toNat < 0xd800 from h) (by omega)
  · intro hs
    exact absurd (show 0xdfff < c.toNat from h) (by omega)

end Spreadsheet.Text
