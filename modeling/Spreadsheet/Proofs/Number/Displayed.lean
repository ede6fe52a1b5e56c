import Mathlib
import Spreadsheet.Proofs.Evaluation.Definedness
import Spreadsheet.Proofs.Number.Canonical

/-!
# Numbers are displayed exactly

**Theorem (`display_exact`).** A finite double is shown as its exact value in hundredths, halves away
from zero, by the canonical decimal of this number (`Shows`). So doubles are shown in their order, and
two of them look the same exactly if they have the same hundredths.

Being the nearest whole number of hundredths (`IsHundredths`) says nothing of how it is computed.
Rounding is monotone already because of this (`IsHundredths.mono`), with ties and both signs.
-/

namespace Spreadsheet.Number

variable {x y : Float} {r r' : ℚ} {n n' : ℤ}

/-! ## The nearest hundredths -/

/-- The whole number of hundredths nearest to a number; of two that are equally near, the one away from
zero. -/
def IsHundredths (r : ℚ) (n : ℤ) : Prop :=
  ∀ k : ℤ, |100 * r - n| ≤ |100 * r - k| ∧ (|100 * r - n| = |100 * r - k| → |k| ≤ |n|)

namespace IsHundredths

theorem neg (h : IsHundredths r n) : IsHundredths (-r) (-n) := by
  intro k
  have hflip : ∀ j : ℤ, |100 * -r - j| = |100 * r - (-j : ℤ)| := fun j => by
    rw [← abs_neg]
    push_cast
    ring_nf
  obtain ⟨hle, htie⟩ := h (-k)
  rw [hflip, hflip, neg_neg, abs_neg]
  exact ⟨hle, fun heq => by simpa using htie heq⟩

/-- Which of two numbers is nearer is told by the side of their middle. -/
theorem nearer_iff {a : ℚ} (hlt : n' < n) :
    (|a - n| ≤ |a - n'| ↔ (n + n' : ℚ) ≤ 2 * a) ∧ (|a - n'| ≤ |a - n| ↔ 2 * a ≤ (n + n' : ℚ)) := by
  have hlt : (n' : ℚ) < n := Int.cast_lt.2 hlt
  rw [← sq_le_sq, ← sq_le_sq]
  refine ⟨⟨fun h => ?_, fun h => ?_⟩, fun h => ?_, fun h => ?_⟩ <;> nlinarith only [hlt, h]

theorem eq_zero (h : IsHundredths 0 n) : n = 0 := by
  have hle := (h 0).1
  simpa using hle

/-- **Rounding to hundredths is monotone.** -/
theorem mono (h : IsHundredths r n) (h' : IsHundredths r' n') (hle : r ≤ r') : n ≤ n' := by
  by_contra hnot
  have hlt : n' < n := not_le.1 hnot
  have hlow := (nearer_iff hlt).1.1 (h n').1
  have hhigh := (nearer_iff hlt).2.1 (h' n).1
  -- Both numbers are the middle, and each of the hundredths is the one away from zero.
  obtain rfl : r = r' := by linarith
  have htie : |100 * r - n| = |100 * r - n'| := le_antisymm (h n').1 (h' n).1
  have habs : |n| = |n'| := le_antisymm ((h' n).2 htie.symm) ((h n').2 htie)
  have hopposite : n = -n' := (abs_eq_abs.1 habs).resolve_left hlt.ne'
  have hzero : r = 0 := by
    rw [hopposite] at hlow hhigh
    push_cast at hlow hhigh
    linarith
  rw [hzero] at h h'
  rw [h.eq_zero, h'.eq_zero] at hlt
  exact lt_irrefl 0 hlt

/-- What is at most half a hundredth below a number or less than half a hundredth above it. -/
theorem of_mem (hr : 0 ≤ r) (hlow : (n - 1 / 2 : ℚ) ≤ 100 * r) (hhigh : 100 * r < n + 1 / 2) :
    IsHundredths r n := by
  have hn : 0 ≤ n := by
    have hn : (-1 : ℚ) < n := by linarith
    have hn : -1 < n := by exact_mod_cast hn
    omega
  have hnear : |100 * r - n| ≤ 1 / 2 := abs_le.2 ⟨by linarith, by linarith⟩
  intro k
  rcases lt_trichotomy k n with hlt | rfl | hgt
  · have hk : (k + 1 : ℚ) ≤ n := by exact_mod_cast hlt
    have hdistance : |100 * r - k| = 100 * r - k := abs_of_nonneg (by linarith)
    refine ⟨by linarith, fun heq => ?_⟩
    have hpositive : (-1 : ℚ) < k := by linarith
    have hpositive : -1 < k := by exact_mod_cast hpositive
    rw [abs_of_nonneg hn, abs_of_nonneg (by omega)]
    exact hlt.le
  · exact ⟨le_rfl, fun _ => le_rfl⟩
  · have hk : (n + 1 : ℚ) ≤ k := by exact_mod_cast hgt
    have hdistance : |100 * r - k| = k - 100 * r := by
      rw [abs_sub_comm]
      exact abs_of_nonneg (by linarith)
    exact ⟨by linarith, fun heq => absurd heq (by linarith)⟩

end IsHundredths

/-- **Division finds the nearest hundredths.** -/
theorem isHundredths_ofUnits (negative : Bool) (units : Nat) :
    IsHundredths (signed negative units / unitsPerOne)
      (signed negative (Hundredths.ofUnits negative units).count) := by
  have hcount := (roundDiv_halfUp_eq_iff unitsPerOne_pos).1
    (Eq.refl (roundDiv halfUp (100 * units) unitsPerOne))
  simp only [Hundredths.ofUnits]
  generalize roundDiv halfUp (100 * units) unitsPerOne = count at hcount ⊢
  have hpositive : IsHundredths (units / unitsPerOne) count := by
    have hpos := unitsPerOne_cast_pos
    have hlow : (2 * (count * unitsPerOne) : ℚ) ≤ 2 * (100 * units) + unitsPerOne := by
      exact_mod_cast hcount.1
    have hhigh : (2 * (100 * units) : ℚ) < 2 * (count * unitsPerOne) + unitsPerOne := by
      exact_mod_cast hcount.2
    refine .of_mem (div_nonneg (Nat.cast_nonneg _) hpos.le) ?_ ?_
    · rw [← mul_div_assoc, le_div_iff₀ hpos, Int.cast_natCast]
      linarith
    · rw [← mul_div_assoc, div_lt_iff₀ hpos, Int.cast_natCast]
      linarith
  cases negative
  · rwa [cast_signed_false, signed_false]
  · rw [cast_signed_true, signed_true, neg_div]
    exact hpositive.neg

/-! ## What is shown -/

/-- How many digits hundredths may have to be rounded. -/
def precision : Nat := 400

/-- A double is shown as a whole number of hundredths. -/
structure Shows (x : Float) (n : ℤ) : Prop where
  /-- They are the hundredths nearest to the exact value. -/
  nearest : IsHundredths (exact x) n
  /-- They have no more digits than can be rounded. -/
  fits : n.natAbs < 10 ^ precision
  /-- There is a text, -/
  shown : displayAndRound? x = some (display x, round x)
  /-- and it is the only canonical decimal of their number. -/
  text : ∀ text : String, Canonical text.toList (n / 100) ↔ text = display x

/-- The largest hundredths have 311 digits. -/
theorem maxFinite_lt_pow {digits : Nat} (h : 311 ≤ digits) : maxFinite * 100 < 10 ^ digits := by
  have hfirst : maxFinite * 100 < Nat.pow 10 311 := by decide +kernel
  generalize 311 = first at h hfirst
  exact hfirst.trans_le (Nat.pow_le_pow_right (by decide) h)

theorem natAbs_signed (negative : Bool) (n : Nat) : (signed negative n).natAbs = n := by
  cases negative <;> simp

/-- **A finite double is shown.** -/
theorem exists_shows (h : isFinite x = true) : ∃ n, Shows x n := by
  obtain ⟨negative, bits, -, -, hread, -⟩ := exists_magnitude h
  have hcanonical := canonical_chars (Hundredths.ofUnits negative (unitsOfBits bits))
  have hdisplay : (display x).toList = (Hundredths.ofUnits negative (unitsOfBits bits)).chars := by
    rw [display, String.toList_ofList, displayChars, hread]
  refine ⟨signed negative (Hundredths.ofUnits negative (unitsOfBits bits)).count, ?_, ?_,
    displayAndRound?_of_isFinite h, fun text => ⟨fun htext => ?_, ?_⟩⟩
  · rw [exact, signedUnits_of_read hread]
    exact isHundredths_ofUnits negative _
  · rw [natAbs_signed]
    exact (count_ofUnits_le (units_le_of_read hread)).trans_lt (maxFinite_lt_pow (by decide))
  · refine String.toList_injective ?_
    rw [hdisplay]
    exact htext.unique hcanonical
  · rintro rfl
    rw [hdisplay]
    exact hcanonical

/-- **Numbers are displayed exactly**, in their order, and the same exactly if they have the same
hundredths. -/
theorem display_exact (hx : isFinite x = true) (hy : isFinite y = true) :
    ∃ m n : ℤ, Shows x m ∧ Shows y n ∧ (x ≤ y → m ≤ n) ∧ (display x = display y ↔ m = n) := by
  obtain ⟨m, hm⟩ := exists_shows hx
  obtain ⟨n, hn⟩ := exists_shows hy
  refine ⟨m, n, hm, hn, fun hle => ?_, fun heq => ?_, ?_⟩
  · exact hm.nearest.mono hn.nearest ((le_iff_exact_le hx hy).1 hle)
  · have hnumber := ((hm.text _).2 heq.symm).number_unique ((hn.text _).2 rfl)
    rw [div_left_inj' (by norm_num)] at hnumber
    exact_mod_cast hnumber
  · rintro rfl
    exact (hn.text _).1 ((hm.text _).2 rfl)

/-- Half a hundredth goes away from zero, also below zero, and a negative zero has no sign. -/
theorem display_exact_of_tie :
    display (Float.ofBits 0xbfc0000000000000) = "-0.13" ∧
      display (Float.ofBits 0x8000000000000000) = "0" ∧
      ∃ m n : ℤ, Shows (Float.ofBits 0xbfc0000000000000) m ∧
        Shows (Float.ofBits 0x8000000000000000) n ∧ m ≤ n ∧ m ≠ n := by
  have hx : display (Float.ofBits 0xbfc0000000000000) = "-0.13" := by decide +kernel
  have hy : display (Float.ofBits 0x8000000000000000) = "0" := by decide +kernel
  obtain ⟨m, n, hm, hn, hle, hsame⟩ := display_exact (x := Float.ofBits 0xbfc0000000000000)
    (y := Float.ofBits 0x8000000000000000) (by decide +kernel) (by decide +kernel)
  refine ⟨hx, hy, m, n, hm, hn, hle (by decide +kernel), fun heq => ?_⟩
  rw [← hsame, hx, hy] at heq
  exact absurd heq (by decide)

end Spreadsheet.Number
