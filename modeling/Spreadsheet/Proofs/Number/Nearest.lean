import Mathlib
import Spreadsheet.Proofs.Number.Range
import Spreadsheet.Proofs.Text.Numerals

/-!
# The nearest double

**Theorem (`nearestBits_nearest`).** The double that is taken for a fraction is at least as near to it as
any other double, and of two that are equally near it is the even one.

**Theorem (`nearestBits_lt_infinityBits_iff`).** It is finite exactly if the fraction is below the middle
between the largest finite double and the power of two that would follow (`overflow`).

The fraction is compared with units of the last place of its binade (`exists_binade`). A double is a
multiple of this unit, or it lies below the binade (`unitsOfBits_grid`), so that rounding to whole units
cannot miss a nearer one.

A decimal is read as the double nearest to it, whatever its size (`ofDecimal_eq_nearest`): the shortcuts
for very large and very small ones agree with rounding.
-/

namespace Spreadsheet.Number

open Text

variable {tieUp : Nat → Bool} {num den k : Nat}

/-! ## Rounded quotients -/

/-- A quotient is rounded down or up to the nearer neighbour. -/
theorem roundDiv_cases (tieUp : Nat → Bool) (num den : Nat) :
    (roundDiv tieUp num den = num / den ∧ 2 * (num % den) ≤ den) ∨
      (roundDiv tieUp num den = num / den + 1 ∧ den ≤ 2 * (num % den)) := by
  simp only [roundDiv]
  split_ifs <;> omega

/-- No multiple of the divisor is nearer than the rounded quotient. -/
theorem roundDiv_nearest (tieUp : Nat → Bool) (num : Nat) (hden : 0 < den) (k : Nat) :
    Nat.dist num (roundDiv tieUp num den * den) ≤ Nat.dist num (k * den) := by
  have hsplit := Nat.div_add_mod' num den
  have hrest := Nat.mod_lt num hden
  have hside : k * den ≤ num / den * den ∨ num / den * den + den ≤ k * den := by
    rcases Nat.lt_or_ge (num / den) k with h | h
    · exact .inr (by simpa [Nat.succ_mul] using Nat.mul_le_mul_right den h)
    · exact .inl (Nat.mul_le_mul_right den h)
  unfold Nat.dist
  rcases roundDiv_cases tieUp num den with ⟨heq, hnear⟩ | ⟨heq, hnear⟩ <;> rw [heq]
  · omega
  · rw [Nat.succ_mul]
    omega

/-- Of two multiples that are equally near, the even one is taken. -/
theorem roundDiv_halfEven_even (hden : 0 < den) (hk : k ≠ roundDiv halfEven num den)
    (h : Nat.dist num (roundDiv halfEven num den * den) = Nat.dist num (k * den)) :
    roundDiv halfEven num den % 2 = 0 := by
  have hsplit := Nat.div_add_mod' num den
  have hrest := Nat.mod_lt num hden
  have hup : (num / den + 1) * den = num / den * den + den := Nat.succ_mul _ _
  -- Only the two neighbours of the quotient can be equally near.
  have hside : k * den + den ≤ num / den * den ∨ k = num / den ∨ k = num / den + 1 ∨
      num / den * den + 2 * den ≤ k * den := by
    rcases Nat.lt_or_ge k (num / den) with hlt | hge
    · exact .inl (by simpa [Nat.succ_mul] using Nat.mul_le_mul_right den hlt)
    · rcases Nat.lt_or_ge (num / den + 1) k with hlt' | hle'
      · refine .inr (.inr (.inr ?_))
        have := Nat.mul_le_mul_right den hlt'
        rw [Nat.succ_mul, Nat.succ_mul] at this
        omega
      · omega
  unfold Nat.dist at h
  simp only [roundDiv, halfEven, beq_iff_eq] at h hk ⊢
  split_ifs at h hk ⊢ with hlow hhigh htie
  · rcases hside with hside | rfl | rfl | hside <;> omega
  · rcases hside with hside | rfl | rfl | hside <;> omega
  · omega
  · omega

/-- A common factor does not matter. -/
theorem roundDiv_mul_left {c : Nat} (hc : 0 < c) :
    roundDiv tieUp (c * num) (c * den) = roundDiv tieUp num den := by
  have hlt : ∀ a b, 2 * (c * a) < c * b ↔ 2 * a < b := fun a b => by
    rw [Nat.mul_left_comm, Nat.mul_lt_mul_left hc]
  have hlt' : ∀ a b, c * b < 2 * (c * a) ↔ b < 2 * a := fun a b => by
    rw [Nat.mul_left_comm, Nat.mul_lt_mul_left hc]
  simp only [roundDiv, Nat.mul_div_mul_left _ _ hc, Nat.mul_mod_mul_left, hlt, hlt']

/-- Halves are rounded up. -/
theorem roundDiv_halfUp_eq_iff (hden : 0 < den) :
    roundDiv halfUp num den = k ↔
      2 * (k * den) ≤ 2 * num + den ∧ 2 * num < 2 * (k * den) + den := by
  have hsplit := Nat.div_add_mod' num den
  have hrest := Nat.mod_lt num hden
  have hrounded : roundDiv halfUp num den = (2 * num + den) / (2 * den) := by
    symm
    have hdouble : ∀ q, q * (2 * den) = 2 * (q * den) := fun q => Nat.mul_left_comm _ _ _
    have hup : (num / den + 1) * den = num / den * den + den := Nat.succ_mul _ _
    rw [Nat.div_eq_iff (by omega), hdouble]
    simp only [roundDiv, halfUp, if_true, ite_self]
    split_ifs <;> omega
  rw [hrounded, Nat.div_eq_iff (by omega), show k * (2 * den) = 2 * (k * den) from
    Nat.mul_left_comm _ _ _]
  omega

/-- What is halfway above an odd number is rounded up. -/
theorem roundDiv_halfEven_le_iff (num : Nat) (hden : 0 < den) (hk : k % 2 = 1) :
    roundDiv halfEven num den ≤ k ↔ 2 * num < (2 * k + 1) * den := by
  have hsplit := Nat.div_add_mod' num den
  have hrest := Nat.mod_lt num hden
  have hshape : (2 * k + 1) * den = 2 * (k * den) + den := by ring
  rw [hshape]
  rcases Nat.lt_trichotomy (num / den) k with hlt | heq | hgt
  · have hside : num / den * den + den ≤ k * den := by
      simpa [Nat.succ_mul] using Nat.mul_le_mul_right den hlt
    rcases roundDiv_cases halfEven num den with ⟨hround, -⟩ | ⟨hround, -⟩ <;> omega
  · rw [heq] at hsplit
    simp only [roundDiv, halfEven, heq, hk, beq_self_eq_true, if_true]
    split_ifs <;> omega
  · have hside : k * den + den ≤ num / den * den := by
      simpa [Nat.succ_mul] using Nat.mul_le_mul_right den hgt
    rcases roundDiv_cases halfEven num den with ⟨hround, -⟩ | ⟨hround, -⟩ <;> omega

/-! ## The binade of a fraction -/

/-- A fraction is rounded in units of the last place of its binade, or in the smallest units. -/
theorem exists_binade (num : Nat) (hden : 0 < den) :
    ∃ s, nearestBits num den = min infinityBits
        (s * 2 ^ 52 + roundDiv halfEven (num * unitsPerOne) (den * 2 ^ s)) ∧
      num * unitsPerOne < 2 ^ 53 * (den * 2 ^ s) ∧
      (s = 0 ∨ 2 ^ 52 * (den * 2 ^ s) ≤ num * unitsPerOne) := by
  refine ⟨(num * unitsPerOne / den).log2 - 52, rfl, ?_, ?_⟩
  · have hself : num * unitsPerOne / den < 2 ^ ((num * unitsPerOne / den).log2 + 1) :=
      Nat.lt_log2_self
    generalize (num * unitsPerOne / den).log2 = size at hself ⊢
    have hpower : 2 ^ (size + 1) ≤ 2 ^ 53 * 2 ^ (size - 52) := by
      rw [← Nat.pow_add]
      exact Nat.pow_le_pow_right (by decide) (by omega)
    have hscaled := (Nat.div_lt_iff_lt_mul hden).1 (Nat.lt_of_lt_of_le hself hpower)
    rwa [Nat.mul_assoc, Nat.mul_comm _ den] at hscaled
  · rcases Nat.eq_zero_or_pos ((num * unitsPerOne / den).log2 - 52) with hzero | hpos
    · exact .inl hzero
    · refine .inr ?_
      have hne : num * unitsPerOne / den ≠ 0 := by
        intro hzero
        rw [hzero, Nat.log2_zero] at hpos
        omega
      have hself : 2 ^ (num * unitsPerOne / den).log2 ≤ num * unitsPerOne / den :=
        Nat.log2_self_le hne
      generalize (num * unitsPerOne / den).log2 = size at hself hpos ⊢
      have hsplit : 2 ^ size = 2 ^ 52 * 2 ^ (size - 52) := by
        rw [← Nat.pow_add]
        congr 1
        omega
      have hscaled := (Nat.le_div_iff_mul_le hden).1 hself
      rwa [hsplit, Nat.mul_assoc, Nat.mul_comm _ den] at hscaled

/-- The bits of a mantissa and its exponent. A mantissa of 54 bits is the first of the next binade. -/
theorem unitsOfBits_mantissa {s m : Nat} (hm : m ≤ 2 ^ 53) (hs : s = 0 ∨ 2 ^ 52 ≤ m) :
    unitsOfBits (s * 2 ^ 52 + m) = m * 2 ^ s := by
  simp only [unitsOfBits, Nat.pow_eq]
  by_cases hsmall : m < 2 ^ 52
  · obtain rfl : s = 0 := hs.resolve_right (by omega)
    rw [if_pos (by omega)]
    omega
  · rw [if_neg (by omega)]
    rcases Nat.lt_or_eq_of_le hm with hlt | rfl
    · have hexponent : (s * 2 ^ 52 + m) / 2 ^ 52 - 1 = s := by omega
      have hmantissa : 2 ^ 52 + (s * 2 ^ 52 + m) % 2 ^ 52 = m := by omega
      rw [hexponent, hmantissa]
    · have hexponent : (s * 2 ^ 52 + 2 ^ 53) / 2 ^ 52 - 1 = s + 1 := by omega
      have hmantissa : 2 ^ 52 + (s * 2 ^ 52 + 2 ^ 53) % 2 ^ 52 = 2 ^ 52 := by omega
      rw [hexponent, hmantissa]
      ring

/-- A double is a multiple of a unit, or lies below all mantissas of its binade. -/
theorem unitsOfBits_grid (bits s : Nat) :
    (∃ j, unitsOfBits bits = j * 2 ^ s) ∨ (0 < s ∧ unitsOfBits bits < 2 ^ 52 * 2 ^ s) := by
  have hmantissa : bits % 2 ^ 52 < 2 ^ 52 := Nat.mod_lt _ (by decide)
  simp only [unitsOfBits, Nat.pow_eq]
  split_ifs with hsmall
  · rcases Nat.eq_zero_or_pos s with rfl | hpos
    · exact .inl ⟨bits, (Nat.mul_one bits).symm⟩
    · refine .inr ⟨hpos, Nat.lt_of_lt_of_le hsmall ?_⟩
      exact Nat.le_mul_of_pos_right _ (Nat.two_pow_pos s)
  · generalize bits / 2 ^ 52 - 1 = e
    rcases Nat.lt_or_ge e s with hlt | hge
    · refine .inr ⟨by omega, ?_⟩
      calc (2 ^ 52 + bits % 2 ^ 52) * 2 ^ e < 2 ^ 53 * 2 ^ e :=
            Nat.mul_lt_mul_of_pos_right (by omega) (Nat.two_pow_pos e)
        _ = 2 ^ 52 * 2 ^ (e + 1) := by ring
        _ ≤ 2 ^ 52 * 2 ^ s := Nat.mul_le_mul_left _ (Nat.pow_le_pow_right (by decide) hlt)
    · refine .inl ⟨(2 ^ 52 + bits % 2 ^ 52) * 2 ^ (e - s), ?_⟩
      rw [Nat.mul_assoc, ← Nat.pow_add, Nat.sub_add_cancel hge]

/-- The rounded mantissa of a fraction in its binade. -/
theorem mantissa_bounds (tieUp : Nat → Bool) {s : Nat} (hden : 0 < den) {scaled : Nat}
    (hhigh : scaled < 2 ^ 53 * (den * 2 ^ s)) (hlow : s = 0 ∨ 2 ^ 52 * (den * 2 ^ s) ≤ scaled) :
    roundDiv tieUp scaled (den * 2 ^ s) ≤ 2 ^ 53 ∧
      (s = 0 ∨ 2 ^ 52 ≤ roundDiv tieUp scaled (den * 2 ^ s)) := by
  have hunit : 0 < den * 2 ^ s := Nat.mul_pos hden (Nat.two_pow_pos s)
  refine ⟨roundDiv_le hunit hhigh.le, hlow.imp_right fun hlow => ?_⟩
  have hquotient : 2 ^ 52 ≤ scaled / (den * 2 ^ s) := (Nat.le_div_iff_mul_le hunit).2 hlow
  rcases roundDiv_cases tieUp scaled (den * 2 ^ s) with ⟨heq, -⟩ | ⟨heq, -⟩ <;> omega

/-! ## Nearness -/

/-- **The double that is taken for a fraction is the nearest one**, and of two that are equally near it
is the even one. -/
theorem nearestBits_nearest (hden : 0 < den) (h : nearestBits num den < infinityBits) (bits : Nat) :
    Nat.dist (num * unitsPerOne) (unitsOfBits (nearestBits num den) * den) ≤
        Nat.dist (num * unitsPerOne) (unitsOfBits bits * den) ∧
      (Nat.dist (num * unitsPerOne) (unitsOfBits (nearestBits num den) * den) =
          Nat.dist (num * unitsPerOne) (unitsOfBits bits * den) →
        unitsOfBits bits ≠ unitsOfBits (nearestBits num den) → nearestBits num den % 2 = 0) := by
  obtain ⟨s, hbits, hhigh, hlow⟩ := exists_binade num hden
  have hunit : 0 < den * 2 ^ s := Nat.mul_pos hden (Nat.two_pow_pos s)
  obtain ⟨hmantissa, hnormal⟩ := mantissa_bounds halfEven hden hhigh hlow
  rw [hbits] at h ⊢
  rw [Nat.min_eq_right (by omega)]
  generalize hm : roundDiv halfEven (num * unitsPerOne) (den * 2 ^ s) = m at *
  have hshape : ∀ j, j * 2 ^ s * den = j * (den * 2 ^ s) := fun j => by ring
  rw [unitsOfBits_mantissa hmantissa hnormal, hshape]
  rcases unitsOfBits_grid bits s with ⟨j, hj⟩ | ⟨hpos, hbelow⟩
  · rw [hj, hshape, ← hm]
    refine ⟨roundDiv_nearest _ _ hunit j, fun htie hne => ?_⟩
    have heven := roundDiv_halfEven_even hunit (fun heq => hne (by rw [heq])) htie
    omega
  · -- The bound of the binade lies between the fraction and the double below.
    have hscaled : 2 ^ 52 * (den * 2 ^ s) ≤ num * unitsPerOne := hlow.resolve_left (by omega)
    have hbound : unitsOfBits bits * den < 2 ^ 52 * (den * 2 ^ s) := by
      rw [← hshape]
      exact Nat.mul_lt_mul_of_pos_right hbelow hden
    have hnearest := roundDiv_nearest halfEven (num * unitsPerOne) hunit (2 ^ 52)
    rw [hm] at hnearest
    generalize num * unitsPerOne = scaled at *
    unfold Nat.dist at hnearest ⊢
    exact ⟨by omega, fun htie _ => by omega⟩

/-! ## Overflow -/

/-- The middle between the largest finite double and the power of two that would follow. -/
def overflow : Nat := (2 ^ 54 - 1) * 2 ^ 970

theorem overflow_mul_unitsPerOne : overflow * unitsPerOne = (2 ^ 54 - 1) * 2 ^ 2044 := by
  have hexponent : 2044 = 970 + 1074 := rfl
  rw [overflow, unitsPerOne_eq, hexponent]
  generalize 970 = a
  generalize 1074 = b
  rw [Nat.pow_add, Nat.mul_assoc]

/-- **A fraction has a finite nearest double exactly if it is below the middle** between the largest
finite double and the power of two that would follow. -/
theorem nearestBits_lt_infinityBits_iff (hden : 0 < den) :
    nearestBits num den < infinityBits ↔ num < overflow * den := by
  obtain ⟨s, hbits, hhigh, hlow⟩ := exists_binade num hden
  have hunit : 0 < den * 2 ^ s := Nat.mul_pos hden (Nat.two_pow_pos s)
  obtain ⟨hmantissa, hnormal⟩ := mantissa_bounds halfEven hden hhigh hlow
  have hinfinity : infinityBits = 2045 * 2 ^ 52 + 2 ^ 53 := rfl
  have hscaled : num < overflow * den ↔ num * unitsPerOne < (2 ^ 54 - 1) * (den * 2 ^ 2044) := by
    rw [← Nat.mul_lt_mul_right unitsPerOne_pos, Nat.mul_right_comm, overflow_mul_unitsPerOne,
      Nat.mul_assoc, Nat.mul_comm (2 ^ 2044)]
  have hdouble : ∀ {a b}, b = a + 1 → den * 2 ^ b = 2 * (den * 2 ^ a) := by
    rintro a _ rfl
    ring
  have hmono : ∀ {a b}, a ≤ b → den * 2 ^ a ≤ den * 2 ^ b :=
    fun h => Nat.mul_le_mul_left _ (Nat.pow_le_pow_right (by decide) h)
  rw [hbits, hscaled, min_lt_iff, or_iff_right (Nat.lt_irrefl _), hinfinity]
  generalize num * unitsPerOne = scaled at *
  rcases Nat.lt_trichotomy s 2045 with hlt | rfl | hgt
  · -- The binade ends below the middle.
    have hunits : den * 2 ^ s ≤ den * 2 ^ 2044 := hmono (Nat.le_of_lt_succ hlt)
    generalize den * 2 ^ 2044 = unit at *
    generalize roundDiv halfEven scaled (den * 2 ^ s) = m at *
    exact iff_of_true (by omega) (by omega)
  · -- The middle lies in this binade, half a unit above its last mantissa.
    have hunits : den * 2 ^ 2045 = 2 * (den * 2 ^ 2044) := hdouble rfl
    have hle := roundDiv_halfEven_le_iff scaled (k := 2 ^ 53 - 1) hunit (by decide)
    rw [hunits] at hle ⊢
    generalize den * 2 ^ 2044 = unit at *
    omega
  · -- The binade starts above the middle.
    have hunits : den * 2 ^ 2046 ≤ den * 2 ^ s := hmono hgt
    have hhalf : den * 2 ^ 2046 = 2 * (den * 2 ^ 2045) := hdouble rfl
    have hquarter : den * 2 ^ 2045 = 2 * (den * 2 ^ 2044) := hdouble rfl
    have hstart := hlow.resolve_left (by omega)
    have hnormal := hnormal.resolve_left (by omega)
    rw [hhalf, hquarter] at hunits
    generalize den * 2 ^ 2044 = unit at *
    generalize roundDiv halfEven scaled (den * 2 ^ s) = m at *
    exact iff_of_false (by omega) (by omega)

/-! ## Equal fractions -/

theorem nearestBits_mul_left {c : Nat} (hc : 0 < c) :
    nearestBits (c * num) (c * den) = nearestBits num den := by
  simp only [nearestBits, Nat.mul_assoc c, Nat.mul_div_mul_left _ _ hc, roundDiv_mul_left hc]

/-- The double depends on the value of the fraction only. -/
theorem nearestBits_congr {num' den' : Nat} (hden : 0 < den) (hden' : 0 < den')
    (h : num * den' = num' * den) : nearestBits num den = nearestBits num' den' := by
  rw [← nearestBits_mul_left hden', Nat.mul_comm den' num, h, Nat.mul_comm num',
    Nat.mul_comm den', nearestBits_mul_left hden]

/-! ## Decimals -/

/-- What is below half of the smallest double is rounded to zero. -/
theorem nearestBits_eq_zero (h : 2 * (num * unitsPerOne) < den) : nearestBits num den = 0 := by
  have hquotient : num * unitsPerOne / den = 0 := Nat.div_eq_of_lt (by omega)
  have hrest : num * unitsPerOne % den = num * unitsPerOne := Nat.mod_eq_of_lt (by omega)
  have hlog : Nat.log2 0 - 52 = 0 := by rw [Nat.log2_zero]
  simp only [nearestBits, hquotient, hlog, Nat.pow_eq, Nat.pow_zero, Nat.mul_one, Nat.zero_mul,
    Nat.zero_add, roundDiv, hrest, if_pos h, Nat.min_zero]

theorem nearestBits_eq_infinityBits (hden : 0 < den) (h : overflow * den ≤ num) :
    nearestBits num den = infinityBits := by
  have hnot := mt (nearestBits_lt_infinityBits_iff hden).1 (Nat.not_lt.2 h)
  exact Nat.le_antisymm (Nat.min_le_left _ _) (Nat.not_lt.1 hnot)

theorem two_units_le_pow {e : Nat} (h : 331 ≤ e) : 2 * unitsPerOne ≤ 10 ^ e := by
  have hfirst : 2 * unitsPerOne ≤ Nat.pow 10 331 := by decide +kernel
  generalize 331 = first at h hfirst
  exact hfirst.trans (Nat.pow_le_pow_right (by decide) h)

theorem overflow_le_pow {e : Nat} (h : 320 ≤ e) : overflow ≤ 10 ^ e := by
  have hfirst : overflow ≤ Nat.pow 10 320 := by decide +kernel
  generalize 320 = first at h hfirst
  exact hfirst.trans (Nat.pow_le_pow_right (by decide) h)

/-- **A decimal is read as the double nearest to it.** The values that are settled by their size are
those below half of the smallest double and those that overflow. -/
theorem ofDecimal_eq_nearest (negative : Bool) (digits places : Nat) :
    ofDecimal negative digits (-(places : Int)) = nearest negative digits (10 ^ places) := by
  have hplaces : 0 < 10 ^ places := Nat.pow_pos (by decide)
  have hbelow : digits < 10 ^ (decimalChars digits).length := by
    have hread := numeralValue_lt (decimalChars digits)
    rwa [numeralValue_decimalChars] at hread
  have hpos : 0 < (decimalChars digits).length :=
    List.length_pos_iff.2 (decimalChars_ne_nil digits)
  have habove : 1 < (decimalChars digits).length →
      10 ^ ((decimalChars digits).length - 1) ≤ digits := by
    intro hlong
    by_contra hlt
    have := length_decimalChars_le (Nat.not_le.1 hlt) (by omega)
    omega
  unfold ofDecimal nearest
  dsimp only
  generalize (decimalChars digits).length = size at hbelow hpos habove ⊢
  split_ifs with htiny hhuge hwhole
  · refine congrArg (ofSignBits negative) (nearestBits_eq_zero ?_).symm
    simp only [Bool.or_eq_true, decide_eq_true_eq] at htiny
    rcases htiny with rfl | hsize
    · simp
    · calc 2 * (digits * unitsPerOne) = digits * (2 * unitsPerOne) := Nat.mul_left_comm _ _ _
        _ < 10 ^ size * (2 * unitsPerOne) :=
            Nat.mul_lt_mul_of_pos_right hbelow (Nat.mul_pos (by decide) unitsPerOne_pos)
        _ ≤ 10 ^ size * 10 ^ (places - size) :=
            Nat.mul_le_mul_left _ (two_units_le_pow (by omega))
        _ = 10 ^ places := by rw [← Nat.pow_add, Nat.add_sub_cancel' (by omega)]
  · refine congrArg (ofSignBits negative) (nearestBits_eq_infinityBits hplaces ?_).symm
    calc overflow * 10 ^ places ≤ 10 ^ (size - 1 - places) * 10 ^ places :=
          Nat.mul_le_mul_right _ (overflow_le_pow (by omega))
      _ = 10 ^ (size - 1) := by rw [← Nat.pow_add, Nat.sub_add_cancel (by omega)]
      _ ≤ digits := habove (by omega)
  · obtain rfl : places = 0 := by omega
    simp
  · simp

end Spreadsheet.Number
