import Mathlib
import Spreadsheet.Proofs.Number.Canonical

/-!
# Displayed numbers are kept

**Theorem (`evaluate_token_round`).** A finite double that was rounded to hundredths has the same text
as before, is not changed by rounding it once more, and is what a formula reads from its token. So a
number does not drift, however often it is shown, substituted and evaluated again.

Doubles may lie further apart than hundredths, and then the double nearest to a number of hundredths is
none of them. It still is not further from them than the double that was rounded was
(`hundredths_round`). The only doubt is a tie: two doubles half a hundredth below and above would differ
by exactly a hundredth, which is no difference of doubles (`hundredth_ne_sub`).
-/

namespace Spreadsheet.Number

open Text Arithmetic

variable {x : Float} {negative : Bool} {units : Nat}

/-! ## Rounding once more -/

/-- No two doubles differ by a hundredth. -/
theorem hundredth_ne_sub (a b : Nat) : 100 * a ≠ 100 * b + unitsPerOne := by
  intro h
  have hfive : 5 ∣ unitsPerOne := ⟨20 * (a - b), by omega⟩
  rw [unitsPerOne_eq] at hfive
  generalize 1074 = n at hfive
  exact absurd (Nat.prime_five.dvd_of_dvd_pow hfive) (by decide)

/-- The double nearest to a double's hundredths has the same hundredths. -/
theorem roundDiv_hundredths (bits : Nat)
    (h : nearestBits (roundDiv halfUp (100 * unitsOfBits bits) unitsPerOne) 100 < infinityBits) :
    roundDiv halfUp (100 * unitsOfBits
        (nearestBits (roundDiv halfUp (100 * unitsOfBits bits) unitsPerOne) 100)) unitsPerOne =
      roundDiv halfUp (100 * unitsOfBits bits) unitsPerOne := by
  have hcount := (roundDiv_halfUp_eq_iff unitsPerOne_pos).1
    (Eq.refl (roundDiv halfUp (100 * unitsOfBits bits) unitsPerOne))
  generalize roundDiv halfUp (100 * unitsOfBits bits) unitsPerOne = count at h hcount ⊢
  have hnearest := (nearestBits_nearest (by decide : 0 < 100) h bits).1
  have hne := hundredth_ne_sub (unitsOfBits (nearestBits count 100)) (unitsOfBits bits)
  rw [roundDiv_halfUp_eq_iff unitsPerOne_pos]
  unfold Nat.dist at hnearest
  omega

/-- **A rounded double has the hundredths of the double.** -/
theorem hundredths_round (h : read x = .finite negative units) :
    ∃ units', read (round x) = .finite negative units' ∧
      Hundredths.ofUnits negative units' = Hundredths.ofUnits negative units := by
  have hfinite : isFinite x = true := by rw [isFinite, h]
  obtain ⟨n, bits, -, -, hread, -⟩ := exists_magnitude hfinite
  obtain ⟨rfl, rfl⟩ := Reading.finite.inj (h.symm.trans hread)
  have hbits : nearestBits (Hundredths.ofUnits negative (unitsOfBits bits)).count 100 <
      infinityBits :=
    nearestBits_lt_infinityBits (by decide) (count_ofUnits_le (units_le_of_read h))
  refine ⟨unitsOfBits (nearestBits (Hundredths.ofUnits negative (unitsOfBits bits)).count 100),
    ?_, ?_⟩
  · rw [round, h]
    exact read_ofSignBits negative hbits
  · simp only [Hundredths.ofUnits] at hbits ⊢
    rw [roundDiv_hundredths bits hbits]

theorem round_of_read (h : read x = .finite negative units) :
    round x = (Hundredths.ofUnits negative units).toFloat := by
  rw [round, h]

/-! ## Reading a text back -/

/-- The text of hundredths without a sign is a numeral that denotes them. -/
theorem numeral_count (count : Nat) :
    ∃ whole fraction,
      Numeral (decimalChars (count / 100) ++ Hundredths.fractionChars (count % 100)) whole fraction ∧
        decimalValue whole fraction = nearest false count 100 := by
  obtain ⟨whole, fraction, hplain, hvalue⟩ := plain_count count
  refine ⟨whole, fraction, hplain.numeral, ?_⟩
  rw [decimalValue, ofDecimal_eq_nearest]
  exact congrArg (ofSignBits false)
    (nearestBits_congr (Nat.pow_pos (by decide)) (by decide) hvalue)

/-- The token of hundredths and its tree. A zero loses its sign. -/
theorem token_value (h : read x = .finite negative units) :
    ∃ t, Token (token x).toList t ∧ t.value Empty.elim =
      .ok (if negative && (Hundredths.ofUnits negative units).count != 0
        then -nearest false (Hundredths.ofUnits negative units).count 100
        else nearest false (Hundredths.ofUnits negative units).count 100) := by
  obtain ⟨whole, fraction, hnumeral, hvalue⟩ :=
    numeral_count (Hundredths.ofUnits negative units).count
  have hsign : (Hundredths.ofUnits negative units).negative = negative := rfl
  rw [toList_token (displayChars_of_read h), hsign]
  split_ifs with hneg
  · refine ⟨_, .negative hnumeral, ?_⟩
    rw [Tree.value, Tree.value, Tree.value, hvalue]
    rfl
  · exact ⟨_, .plain hnumeral, by rw [Tree.value, hvalue]⟩

/-- **What the token of hundredths evaluates to.** A zero loses its sign. -/
theorem evaluate_token (h : read x = .finite negative units) :
    Arithmetic.evaluate (token x) =
      .ok (nearest (negative && (Hundredths.ofUnits negative units).count != 0)
        (Hundredths.ofUnits negative units).count 100) := by
  obtain ⟨t, htoken, ht⟩ := token_value h
  have hbits : nearestBits (Hundredths.ofUnits negative units).count 100 < infinityBits :=
    nearestBits_lt_infinityBits (by decide) (count_ofUnits_le (units_le_of_read h))
  generalize (Hundredths.ofUnits negative units).count = count at *
  have hsign : (if negative && count != 0 then -nearest false count 100 else nearest false count 100) =
      nearest (negative && count != 0) count 100 := by
    split_ifs with hneg
    · rw [hneg]
      exact neg_ofSignBits hbits
    · rw [Bool.not_eq_true] at hneg
      rw [hneg]
  rw [Arithmetic.evaluate, htoken.value, ht, hsign]
  exact if_pos (isFinite_nearest hbits)

/-! ## Kept numbers -/

theorem beq_self (h : isFinite x = true) : (x == x) = true :=
  (beq_iff_exact_eq h h).2 rfl

/-- **Numbers survive being displayed.** What was rounded has the same text, is not rounded any further,
and is read back from its token; but a negative zero is read as zero. -/
theorem evaluate_token_round (h : isFinite x = true) :
    display (round x) = display x ∧ round (round x) = round x ∧
      ∃ y, Arithmetic.evaluate (token (round x)) = .ok y ∧ (y == round x) = true ∧
        (y = round x ∨ y = 0 ∧ round x = -0) := by
  obtain ⟨negative, bits, -, -, hread, -⟩ := exists_magnitude h
  obtain ⟨units, hround, hsame⟩ := hundredths_round hread
  have hvalue := evaluate_token hround
  rw [hsame] at hvalue
  refine ⟨?_, ?_, _, hvalue, ?_⟩
  · rw [display, display, displayChars_of_read hround, displayChars_of_read hread, hsame]
  · rw [round_of_read hround, round_of_read hread, hsame]
  · have hfinite := isFinite_round h
    rw [round_of_read hread] at hfinite ⊢
    by_cases hzero : negative = true ∧ (Hundredths.ofUnits negative (unitsOfBits bits)).count = 0
    · obtain ⟨rfl, hcount⟩ := hzero
      have hplus : nearest false 0 100 = 0 := by decide +kernel
      have hminus : nearest true 0 100 = -0 := by decide +kernel
      have hequal : ((0 : Float) == -0) = true := by decide +kernel
      have htoFloat : (Hundredths.ofUnits true (unitsOfBits bits)).toFloat = -0 := by
        rw [Hundredths.toFloat, hcount]
        exact hminus
      rw [hcount, htoFloat, show (true && (0 : Nat) != 0) = false from rfl, hplus]
      exact ⟨hequal, .inr ⟨rfl, rfl⟩⟩
    · have hsign : (negative && (Hundredths.ofUnits negative (unitsOfBits bits)).count != 0) =
          negative := by
        cases negative
        · rfl
        · simpa using hzero
      rw [hsign]
      exact ⟨beq_self hfinite, .inl rfl⟩

/-- About `2 ^ 45` doubles are `1 / 128` apart, and the double nearest to the hundredths of a double may
be another one. From then on it is kept. -/
theorem evaluate_token_round_of_sparse :
    round (Float.ofBits 0xc2c0000000000002) = Float.ofBits 0xc2c0000000000003 ∧
      token (Float.ofBits 0xc2c0000000000002) = "(-35184372088832.02)" ∧
      display (Float.ofBits 0xc2c0000000000003) = display (Float.ofBits 0xc2c0000000000002) ∧
      round (Float.ofBits 0xc2c0000000000003) = Float.ofBits 0xc2c0000000000003 ∧
      ∃ y, Arithmetic.evaluate (token (Float.ofBits 0xc2c0000000000003)) = .ok y ∧
        (y == Float.ofBits 0xc2c0000000000003) = true := by
  have hround : round (Float.ofBits 0xc2c0000000000002) = Float.ofBits 0xc2c0000000000003 := by
    decide +kernel
  have hkept := evaluate_token_round (x := Float.ofBits 0xc2c0000000000002) (by decide +kernel)
  rw [hround] at hkept
  obtain ⟨hdisplay, hagain, y, hy, hequal, -⟩ := hkept
  exact ⟨hround, by decide +kernel, hdisplay, hagain, y, hy, hequal⟩

end Spreadsheet.Number
