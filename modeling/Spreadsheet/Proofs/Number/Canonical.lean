import Mathlib
import Spreadsheet.Proofs.Number.Exact
import Spreadsheet.Proofs.Substitution.Tokens

/-!
# Canonical decimals

A canonical decimal has no superfluous character: no zeros in front or at the end of the fraction, no
point without a fraction, and no sign before a zero (`Canonical`).

**Theorem (`Canonical.unique`).** A number has one canonical decimal at most. The last digit tells how
long the fraction is, and the first one how long the digits before the point are.

**Theorem (`canonical_chars`).** The text of hundredths is the canonical decimal of their number.
-/

namespace Spreadsheet.Number

open Text Arithmetic

/-! ## Canonical decimals -/

/-- The digits before and after the point of a text that has no superfluous character. -/
structure Plain (text whole fraction : List Char) : Prop where
  text_eq : text = if fraction = [] then whole else whole ++ '.' :: fraction
  whole_digits : ∀ c ∈ whole, c.isDigit = true
  fraction_digits : ∀ c ∈ fraction, c.isDigit = true
  whole_ne_nil : whole ≠ []
  leading : whole.head? = some '0' → whole = ['0']
  trailing : fraction.getLast? ≠ some '0'

/-- The number with given digits before and after its point. -/
def decimalNumber (whole fraction : List Char) : ℚ :=
  numeralValue (whole ++ fraction) / 10 ^ fraction.length

/-- The decimal texts without superfluous characters, and the numbers that they denote. -/
inductive Canonical : List Char → ℚ → Prop
  | nonnegative {text whole fraction : List Char} {r : ℚ} :
      Plain text whole fraction → r = decimalNumber whole fraction → Canonical text r
  | negative {text whole fraction : List Char} {r : ℚ} :
      Plain text whole fraction → r = -decimalNumber whole fraction → r ≠ 0 →
      Canonical ('-' :: text) r

namespace Plain

variable {text whole fraction text' whole' fraction' : List Char}

/-- Nothing in front is superfluous, so the number before the point tells how many digits it has. -/
theorem length_whole_le (h : Plain text whole fraction) (h' : Plain text' whole' fraction')
    (hvalue : numeralValue whole = numeralValue whole') : whole.length ≤ whole'.length := by
  by_cases hlead : whole.head? = some '0'
  · rw [h.leading hlead]
    exact List.length_pos_iff.2 h'.whole_ne_nil
  · have hpow := pow_le_numeralValue h.whole_digits h.whole_ne_nil hlead
    have hlt := numeralValue_lt whole'
    rw [← hvalue] at hlt
    have := (Nat.pow_lt_pow_iff_right (by decide : 1 < 10)).1 (Nat.lt_of_le_of_lt hpow hlt)
    omega

theorem numeralValue_eq (h : decimalNumber whole fraction = decimalNumber whole' fraction') :
    numeralValue (whole ++ fraction) * 10 ^ fraction'.length =
      numeralValue (whole' ++ fraction') * 10 ^ fraction.length := by
  have hpow : ∀ n : Nat, (10 ^ n : ℚ) ≠ 0 := fun n => pow_ne_zero n (by norm_num)
  rw [decimalNumber, decimalNumber, div_eq_div_iff (hpow _) (hpow _)] at h
  exact_mod_cast h

/-- Nothing at the end is superfluous, so the number determines how long the fraction is. -/
theorem length_fraction_le (h' : Plain text' whole' fraction')
    (hnumber : decimalNumber whole fraction = decimalNumber whole' fraction') :
    fraction'.length ≤ fraction.length := by
  by_contra hlong
  rcases List.eq_nil_or_concat fraction' with rfl | ⟨front, c, rfl⟩
  · exact hlong (Nat.zero_le _)
  · -- The longer fraction would be the shorter one with zeros behind.
    have hlast := numeralValue_mod_ten (whole' ++ front) (c := c)
      (h'.fraction_digits c (by simp)) fun hc => h'.trailing (by simp [hc])
    obtain ⟨zeros, hzeros⟩ : ∃ k, (front.concat c).length = fraction.length + (k + 1) :=
      ⟨(front.concat c).length - fraction.length - 1, by omega⟩
    have hvalue := numeralValue_eq hnumber
    rw [hzeros, Nat.pow_add, Nat.mul_left_comm, Nat.mul_comm _ (10 ^ fraction.length)] at hvalue
    have hshift := Nat.eq_of_mul_eq_mul_left (Nat.pow_pos (by decide)) hvalue
    rw [Nat.pow_succ, ← Nat.mul_assoc, List.concat_eq_append, ← List.append_assoc] at hshift
    omega

/-- **A number has one plain decimal.** -/
theorem unique (h : Plain text whole fraction) (h' : Plain text' whole' fraction')
    (hnumber : decimalNumber whole fraction = decimalNumber whole' fraction') : text = text' := by
  have hlength : fraction.length = fraction'.length :=
    Nat.le_antisymm (h.length_fraction_le hnumber.symm) (h'.length_fraction_le hnumber)
  have hvalue := numeralValue_eq hnumber
  rw [hlength] at hvalue
  obtain ⟨hwhole, hfraction⟩ := numeralValue_append_inj hlength
    (Nat.eq_of_mul_eq_mul_right (Nat.pow_pos (by decide)) hvalue)
  have hwholes : whole = whole' := numeralValue_inj h.whole_digits h'.whole_digits
    (Nat.le_antisymm (h.length_whole_le h' hwhole) (h'.length_whole_le h hwhole.symm)) hwhole
  rw [h.text_eq, h'.text_eq, hwholes,
    numeralValue_inj h.fraction_digits h'.fraction_digits hlength hfraction]

theorem numeral (h : Plain text whole fraction) : Numeral text whole fraction := by
  have hwhole : ∀ c ∈ whole, isDigit c = true := fun c hc => isDigit_of_ascii (h.whole_digits c hc)
  rw [h.text_eq]
  split_ifs with hnil
  · rw [hnil]
    exact .whole h.whole_ne_nil hwhole
  · exact .point (.inl h.whole_ne_nil) hwhole
      fun c hc => isDigit_of_ascii (h.fraction_digits c hc)

end Plain

theorem decimalNumber_nonneg (whole fraction : List Char) : 0 ≤ decimalNumber whole fraction := by
  unfold decimalNumber
  positivity

namespace Canonical

variable {text text' : List Char} {r r' : ℚ}

/-- **A number has one canonical decimal.** -/
theorem unique (h : Canonical text r) (h' : Canonical text' r) : text = text' := by
  have hsigns : ∀ {ds es ds' es'}, decimalNumber ds es = -decimalNumber ds' es' →
      decimalNumber ds es = 0 := fun {ds es ds' es'} h =>
    le_antisymm (h.trans_le (neg_nonpos.2 (decimalNumber_nonneg ds' es'))) (decimalNumber_nonneg ds es)
  cases h with
  | nonnegative h hr =>
    cases h' with
    | nonnegative h' hr' => exact h.unique h' (hr.symm.trans hr')
    | negative h' hr' hne => exact absurd (hr.trans (hsigns (hr.symm.trans hr'))) hne
  | negative h hr hne =>
    cases h' with
    | nonnegative h' hr' => exact absurd (hr'.trans (hsigns (hr'.symm.trans hr))) hne
    | negative h' hr' => rw [h.unique h' (neg_injective (hr.symm.trans hr'))]

/-- A canonical decimal denotes one number. -/
theorem number_unique (h : Canonical text r) (h' : Canonical text r') : r = r' := by
  have hminus : ∀ {t ds es}, ¬Plain ('-' :: t) ds es := fun h =>
    h.numeral.not_mem (c := '-') (by decide) (by decide) List.mem_cons_self
  cases h with
  | nonnegative h hr =>
    cases h' with
    | nonnegative h' hr' =>
      obtain ⟨rfl, rfl⟩ := h.numeral.unique h'.numeral
      rw [hr, hr']
    | negative => exact absurd h hminus
  | negative h hr =>
    cases h' with
    | nonnegative h' => exact absurd h' hminus
    | negative h' hr' =>
      obtain ⟨rfl, rfl⟩ := h.numeral.unique h'.numeral
      rw [hr, hr']

end Canonical

/-! ## Hundredths -/

/-- The text of hundredths without a sign is plain. -/
theorem plain_count (count : Nat) :
    ∃ whole fraction,
      Plain (decimalChars (count / 100) ++ Hundredths.fractionChars (count % 100)) whole fraction ∧
        numeralValue (whole ++ fraction) * 100 = count * 10 ^ fraction.length := by
  obtain ⟨fraction, hchars, hdigits, hlast, hvalue⟩ :=
    exists_fraction (Nat.mod_lt count (by decide : 0 < 100))
  refine ⟨decimalChars (count / 100), fraction, ⟨?_, ?_, hdigits, decimalChars_ne_nil _, ?_, hlast⟩, ?_⟩
  · rw [hchars]
    split_ifs
    · rw [List.append_nil]
    · rfl
  · exact fun c hc => Nat.isDigit_of_mem_toDigits (by decide) (by decide) hc
  · intro hlead
    rcases Nat.eq_zero_or_pos (count / 100) with hzero | hpos
    · rw [hzero]
      rfl
    · exact absurd hlead (head?_decimalChars hpos)
  · rw [numeralValue_append, numeralValue_decimalChars, Nat.add_mul, hvalue, Nat.mul_right_comm,
      ← Nat.add_mul, Nat.div_add_mod']

/-- **The text of hundredths is the canonical decimal.** -/
theorem canonical_chars (h : Hundredths) :
    Canonical h.chars (signed h.negative h.count / 100) := by
  obtain ⟨whole, fraction, hplain, hvalue⟩ := plain_count h.count
  have hnumber : decimalNumber whole fraction = h.count / 100 := by
    rw [decimalNumber, div_eq_div_iff (pow_ne_zero _ (by norm_num)) (by norm_num)]
    exact_mod_cast hvalue
  have hzero : (h.count / 100 : ℚ) = 0 ↔ h.count = 0 := by
    rw [div_eq_zero_iff, or_iff_left (by norm_num), Nat.cast_eq_zero]
  rw [Hundredths.chars]
  cases hnegative : h.negative with
  | false =>
    rw [cast_signed_false]
    exact .nonnegative hplain hnumber.symm
  | true =>
    rw [cast_signed_true, neg_div]
    by_cases hcount : h.count = 0
    · rw [hzero.2 hcount] at hnumber ⊢
      rw [hcount] at hplain ⊢
      exact .nonnegative hplain (by rw [hnumber, neg_zero])
    · rw [Bool.true_and, if_pos (bne_iff_ne.2 hcount)]
      exact .negative hplain (by rw [hnumber]) (neg_ne_zero.2 (mt hzero.1 hcount))

end Spreadsheet.Number
