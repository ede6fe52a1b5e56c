import Mathlib
import Spreadsheet.Number.Hundredths

/-!
# Rounding stays in range

**Theorem (`isFinite_round`).** A finite double rounded to hundredths is a finite double, so what was
computed can be shown and read by other formulas.

A double is rounded twice: to hundredths, and then to the nearest double. Neither takes it beyond the
largest finite double, because this is a whole number and its own nearest double
(`nearestBits_lt_infinityBits`). That the bits of a finite double are read back as they were written
is `read_ofSignBits`.
-/

namespace Spreadsheet.Number

open Float.Model (Format UnpackedFloat)

/-! ## Rounded quotients -/

/-- A quotient that is at most a whole number is not rounded beyond it. -/
theorem roundDiv_le {tieUp : Nat → Bool} {num den k : Nat} (hden : 0 < den) (h : num ≤ k * den) :
    roundDiv tieUp num den ≤ k := by
  have hsplit : den * (num / den) + num % den = num := Nat.div_add_mod num den
  have hquotient : num / den ≤ k := Nat.div_le_of_le_mul (by rwa [Nat.mul_comm])
  rcases Nat.lt_or_eq_of_le hquotient with hlt | heq
  · simp only [roundDiv]
    split_ifs <;> omega
  · -- The quotient is the whole number itself, so nothing is left over.
    have hrest : num % den = 0 := by
      rw [heq, Nat.mul_comm] at hsplit
      omega
    simp only [roundDiv, hrest, heq]
    rw [if_pos (by omega)]

/-- A mantissa of 53 bits may be rounded up to the next power of two, but not beyond a bound that has
such a mantissa itself. -/
theorem roundedBits_le {scaled den k : Nat} (hden : 0 < den)
    (h : scaled ≤ den * ((2 ^ 53 - 1) * 2 ^ k)) :
    ((scaled / den).log2 - 52) * 2 ^ 52 +
      roundDiv halfEven scaled (den * 2 ^ ((scaled / den).log2 - 52)) ≤
        k * 2 ^ 52 + (2 ^ 53 - 1) := by
  have hquotient : scaled / den ≤ (2 ^ 53 - 1) * 2 ^ k := Nat.div_le_of_le_mul h
  have hshift : (scaled / den).log2 - 52 ≤ k := by
    have hlog : (scaled / den).log2 < 53 + k := by
      rcases Nat.eq_zero_or_pos (scaled / den) with hzero | hpos
      · rw [hzero, Nat.log2_zero]
        omega
      · refine (Nat.log2_lt hpos.ne').2 (Nat.lt_of_le_of_lt hquotient ?_)
        rw [Nat.pow_add]
        exact Nat.mul_lt_mul_of_pos_right (by decide) (Nat.two_pow_pos _)
    omega
  have hself : scaled / den < 2 ^ ((scaled / den).log2 + 1) := Nat.lt_log2_self
  generalize (scaled / den).log2 = size at hshift hself ⊢
  have hpositive : 0 < den * 2 ^ (size - 52) := Nat.mul_pos hden (Nat.two_pow_pos _)
  rcases Nat.lt_or_eq_of_le hshift with hlt | heq
  · have hmantissa : roundDiv halfEven scaled (den * 2 ^ (size - 52)) ≤ 2 ^ 53 := by
      refine roundDiv_le hpositive ?_
      have hpower : 2 ^ (size + 1) ≤ 2 ^ 53 * 2 ^ (size - 52) := by
        rw [← Nat.pow_add]
        exact Nat.pow_le_pow_right (by decide) (by omega)
      have hscaled : scaled < 2 ^ 53 * 2 ^ (size - 52) * den :=
        (Nat.div_lt_iff_lt_mul hden).1 (Nat.lt_of_lt_of_le hself hpower)
      calc scaled ≤ 2 ^ 53 * 2 ^ (size - 52) * den := Nat.le_of_lt hscaled
        _ = 2 ^ 53 * (den * 2 ^ (size - 52)) := by rw [Nat.mul_assoc, Nat.mul_comm den]
    omega
  · rw [heq] at hpositive ⊢
    have hmantissa : roundDiv halfEven scaled (den * 2 ^ k) ≤ 2 ^ 53 - 1 := by
      refine roundDiv_le hpositive ?_
      calc scaled ≤ den * ((2 ^ 53 - 1) * 2 ^ k) := h
        _ = (2 ^ 53 - 1) * (den * 2 ^ k) := Nat.mul_left_comm _ _ _
    omega

/-! ## The largest finite double -/

/-- The units of the largest finite double. -/
def maxUnits : Nat := (2 ^ 53 - 1) * 2 ^ (971 + 1074)

/-- The largest finite double, which is a whole number. -/
def maxFinite : Nat := (2 ^ 53 - 1) * 2 ^ 971

theorem unitsPerOne_eq : unitsPerOne = 2 ^ 1074 := by
  unfold unitsPerOne
  generalize 1074 = n
  rfl

theorem unitsPerOne_pos : 0 < unitsPerOne := by
  rw [unitsPerOne_eq]
  generalize 1074 = n
  exact Nat.two_pow_pos n

theorem maxUnits_eq : maxUnits = maxFinite * unitsPerOne := by
  rw [maxUnits, maxFinite, unitsPerOne_eq]
  generalize 971 = m
  generalize 1074 = n
  rw [Nat.pow_add, Nat.mul_assoc]

/-- No finite double is larger. -/
theorem unitsOfBits_le {bits : Nat} (h : bits < infinityBits) : unitsOfBits bits ≤ maxUnits := by
  have hbits : bits < 2 ^ 52 * 2047 := by
    rwa [infinityBits, Nat.pow_eq, Nat.mul_comm] at h
  have hone : ∀ n, 1 ≤ 2 ^ n := fun n => Nat.one_le_two_pow
  simp only [unitsOfBits, Nat.pow_eq]
  split_ifs with hsmall
  · calc bits ≤ (2 ^ 53 - 1) * 1 := by omega
      _ ≤ maxUnits := Nat.mul_le_mul_left _ (hone _)
  · have hexponent : bits / 2 ^ 52 < 2047 := Nat.div_lt_of_lt_mul hbits
    have hlast : bits / 2 ^ 52 - 1 ≤ 971 + 1074 := by omega
    have hmantissa : bits % 2 ^ 52 < 2 ^ 52 := Nat.mod_lt _ (by decide)
    unfold maxUnits
    generalize 971 + 1074 = last at hlast ⊢
    exact Nat.mul_le_mul (by omega) (Nat.pow_le_pow_right (by decide) (by omega))

/-- **What is at most the largest finite double has a finite nearest double.** -/
theorem nearestBits_lt_infinityBits {num den : Nat} (hden : 0 < den)
    (h : num ≤ maxFinite * den) : nearestBits num den < infinityBits := by
  have hscaled : num * unitsPerOne ≤ den * maxUnits :=
    calc num * unitsPerOne ≤ maxFinite * den * unitsPerOne := Nat.mul_le_mul_right _ h
      _ = den * maxUnits := by rw [maxUnits_eq, Nat.mul_comm maxFinite, Nat.mul_assoc]
  have hrounded := roundedBits_le hden hscaled
  simp only [nearestBits, infinityBits, Nat.pow_eq]
  exact Nat.lt_of_le_of_lt (Nat.min_le_right _ _) (Nat.lt_of_le_of_lt hrounded (by decide))

/-! ## Bits -/

theorem toNat_unpackExponent (bits : UInt64) :
    (@UnpackedFloat.unpackExponent .binary64 bits.toBitVec).toNat =
      bits.toNat / 2 ^ 52 % 2 ^ 11 := by
  simp [UnpackedFloat.unpackExponent, Format.binary64, Nat.shiftRight_eq_div_pow]

/-- Only the bits of what is no number are not kept, and all these have the last exponent. -/
theorem toBits_ofBits {bits : UInt64} (h : bits.toNat / 2 ^ 52 % 2 ^ 11 ≠ 2047) :
    (Float.ofBits bits).toBits = bits := by
  have hvalid : Format.binary64.Valid bits.toBitVec := by
    refine ⟨fun hexponent => absurd ?_ h⟩
    rw [← toNat_unpackExponent, hexponent]
    rfl
  have hpack := UnpackedFloat.pack_unpack_of_valid hvalid
  unfold Float.toBits Float.ofBits
  dsimp only [Float.Model.ofBits, Float.Model.pack]
  rw [hpack]

/-- **The bits of a finite double are read back.** -/
theorem read_ofSignBits (negative : Bool) {bits : Nat} (h : bits < infinityBits) :
    read (ofSignBits negative bits) = .finite negative (unitsOfBits bits) := by
  have hbits : bits < 2047 * 2 ^ 52 := h
  -- The sign is the highest bit, above the exponent.
  have hsigned : ∃ sign, (if negative then Nat.pow 2 63 + bits else bits) = sign * 2 ^ 63 + bits ∧
      sign < 2 ∧ (negative = true ↔ sign = 1) := by
    cases negative with
    | true => exact ⟨1, by simp, by decide, by decide⟩
    | false => exact ⟨0, by simp, by decide, by decide⟩
  obtain ⟨sign, hword, hsign, hnegative⟩ := hsigned
  have hnat : (UInt64.ofNat (sign * 2 ^ 63 + bits)).toNat = sign * 2 ^ 63 + bits :=
    UInt64.toNat_ofNat_of_lt' (by show _ < 2 ^ 64; omega)
  have hkept : (ofSignBits negative bits).toBits.toNat = sign * 2 ^ 63 + bits := by
    rw [ofSignBits, hword, toBits_ofBits (by rw [hnat]; omega), hnat]
  have hmagnitude : (sign * 2 ^ 63 + bits) % 2 ^ 63 = bits := by omega
  have hhighest : decide (2 ^ 63 ≤ sign * 2 ^ 63 + bits) = negative := by
    rw [Bool.eq_iff_iff, decide_eq_true_iff, hnegative]
    omega
  simp only [read, hkept, Nat.pow_eq, hmagnitude, if_pos h, hhighest]

/-! ## Hundredths -/

theorem count_ofUnits_le {negative : Bool} {units : Nat} (h : units ≤ maxUnits) :
    (Hundredths.ofUnits negative units).count ≤ maxFinite * 100 := by
  unfold Hundredths.ofUnits
  dsimp only
  refine roundDiv_le unitsPerOne_pos ?_
  calc 100 * units ≤ 100 * maxUnits := Nat.mul_le_mul_left _ h
    _ = maxFinite * 100 * unitsPerOne := by rw [maxUnits_eq, ← Nat.mul_assoc, Nat.mul_comm 100]

theorem units_le_of_read {x : Float} {negative : Bool} {units : Nat}
    (h : read x = .finite negative units) : units ≤ maxUnits := by
  simp only [read] at h
  split at h
  · rename_i hfinite
    obtain ⟨-, rfl⟩ := Reading.finite.inj h
    exact unitsOfBits_le hfinite
  · split at h <;> cases h

/-- **A finite double that is rounded to hundredths stays finite.** -/
theorem isFinite_round {x : Float} (h : isFinite x = true) : isFinite (round x) = true := by
  unfold isFinite at h
  split at h
  · rename_i negative units hread
    have hbits : nearestBits (Hundredths.ofUnits negative units).count 100 < infinityBits :=
      nearestBits_lt_infinityBits (by decide) (count_ofUnits_le (units_le_of_read hread))
    have hround : round x = ofSignBits negative
        (nearestBits (Hundredths.ofUnits negative units).count 100) := by
      rw [round, hread]
      rfl
    rw [hround, isFinite, read_ofSignBits negative hbits]
  · cases h

end Spreadsheet.Number
