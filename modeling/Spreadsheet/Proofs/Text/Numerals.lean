import Mathlib.Algebra.Group.Nat.Defs
import Spreadsheet.Text.Blank
import Spreadsheet.Text.Digit
import Spreadsheet.Text.Numeral

/-!
# Numerals read back

A number is written in decimal or, of a fixed width, in hexadecimal digits. Both are read back as
the number.

**Main facts.** `numeralValue_decimalChars` and `hexNumeral?_hexChars`; a decimal numeral consists of
digits only, is never empty, and starts with a zero only for zero (`head?_decimalChars`). A number determines
its digits in Ascii, once it is known how many there are (`numeralValue_inj`).
-/

namespace Spreadsheet.Text

/-! ## Decimal numerals -/

theorem digitValue?_of_ascii {c : Char} (h : c.isDigit = true) :
    digitValue? c = some (c.toNat - 48) := by
  have hcode : 48 ≤ c.toNat ∧ c.toNat ≤ 57 := Char.isDigit_iff_toNat.1 h
  have hrange : (decide (0x30 ≤ c.toNat) && decide (c.toNat ≤ 0x39)) = true := by
    simpa using hcode
  unfold digitValue?
  simp only [show c.toNat < 0x80 by omega, hrange, if_true]

theorem isDigit_of_ascii {c : Char} (h : c.isDigit = true) : isDigit c = true := by
  simp [isDigit, digitValue?_of_ascii h]

theorem isDigit_of_mem_decimalChars {n : Nat} {c : Char} (h : c ∈ decimalChars n) :
    isDigit c = true :=
  isDigit_of_ascii (Nat.isDigit_of_mem_toDigits (by decide) (by decide) h)

theorem decimalChars_ne_nil (n : Nat) : decimalChars n ≠ [] :=
  List.length_pos_iff.1 Nat.length_toDigits_pos

/-- Of the decimal numerals only that of zero starts with a zero. -/
theorem head?_decimalChars {n : Nat} (h : 0 < n) : (decimalChars n).head? ≠ some '0' := by
  induction n using Nat.strongRecOn with
  | _ n ih =>
    unfold decimalChars
    by_cases hn : n < 10
    · rw [Nat.toDigits_of_lt_base hn]
      simp
      omega
    · have hfront := ih (n / 10) (by omega) (by omega)
      rw [Nat.toDigits_of_base_le (by decide) (by omega), List.head?_append]
      unfold decimalChars at hfront
      cases hhead : (Nat.toDigits 10 (n / 10)).head? with
      | none => exact absurd (List.head?_eq_none_iff.1 hhead) (decimalChars_ne_nil (n / 10))
      | some c =>
        rw [hhead] at hfront
        exact hfront

theorem length_decimalChars_le {n digits : Nat} (hn : n < Nat.pow 10 digits) (hdigits : 0 < digits) :
    (decimalChars n).length ≤ digits :=
  (Nat.length_toDigits_le_iff (by decide) hdigits).2 hn

/-- **A decimal numeral is read back as its number.** -/
theorem numeralValue_decimalChars (n : Nat) : numeralValue (decimalChars n) = n := by
  have hfold : ∀ (ds : List Char) (m : Nat), (∀ c ∈ ds, c.isDigit = true) →
      ds.foldl (fun n c => n * 10 + (digitValue? c).getD 0) m = Nat.ofDigitChars 10 ds m := by
    intro ds
    induction ds with
    | nil => simp
    | cons c ds ih =>
      intro m hds
      have hc := digitValue?_of_ascii (hds c List.mem_cons_self)
      rw [List.foldl_cons, ih _ fun d hd => hds d (List.mem_cons_of_mem c hd),
        Nat.ofDigitChars_cons, hc, Nat.mul_comm]
      rfl
  have hdigits : ∀ c ∈ decimalChars n, c.isDigit = true :=
    fun c hc => Nat.isDigit_of_mem_toDigits (by decide) (by decide) hc
  rw [numeralValue, hfold _ _ hdigits, decimalChars, Nat.ofDigitChars_ten_toDigits]

theorem digitValue?_lt {c : Char} {n : Nat} (h : digitValue? c = some n) : n < 10 := by
  obtain ⟨-, -, -, hlt⟩ := exists_zero_of_digitValue? h
  exact hlt

theorem numeralValue_cons (c : Char) (ds : List Char) :
    numeralValue (c :: ds) = (digitValue? c).getD 0 * 10 ^ ds.length + numeralValue ds := by
  have hfold : ∀ (ds : List Char) (m : Nat),
      ds.foldl (fun n c => n * 10 + (digitValue? c).getD 0) m =
        m * 10 ^ ds.length + numeralValue ds := by
    intro ds
    induction ds with
    | nil => simp [numeralValue]
    | cons c ds ih =>
      intro m
      have hzero : numeralValue (c :: ds) =
          (digitValue? c).getD 0 * 10 ^ ds.length + numeralValue ds := by
        rw [numeralValue, List.foldl_cons, ih, Nat.zero_mul, Nat.zero_add]
      rw [List.foldl_cons, ih, hzero, List.length_cons, Nat.pow_succ', Nat.add_mul, Nat.mul_assoc,
        Nat.add_assoc]
  rw [numeralValue, List.foldl_cons, hfold, Nat.zero_mul, Nat.zero_add]

/-- The digits behind others count from the last place. -/
theorem numeralValue_append (ds es : List Char) :
    numeralValue (ds ++ es) = numeralValue ds * 10 ^ es.length + numeralValue es := by
  induction ds with
  | nil => simp [numeralValue]
  | cons c ds ih =>
    rw [List.cons_append, numeralValue_cons, ih, numeralValue_cons, List.length_append, Nat.pow_add,
      Nat.add_mul, Nat.mul_assoc, Nat.add_assoc]

theorem numeralValue_lt (ds : List Char) : numeralValue ds < 10 ^ ds.length := by
  induction ds with
  | nil => decide
  | cons c ds ih =>
    have hdigit : (digitValue? c).getD 0 < 10 := by
      cases hc : digitValue? c with
      | none => decide
      | some n => exact digitValue?_lt hc
    have hfirst : (digitValue? c).getD 0 * 10 ^ ds.length ≤ 9 * 10 ^ ds.length :=
      Nat.mul_le_mul_right _ (Nat.le_of_lt_succ hdigit)
    rw [numeralValue_cons, List.length_cons, Nat.pow_succ]
    omega

/-! ## Ascii digits -/

theorem digit_inj {c d : Char} (hc : c.isDigit = true) (hd : d.isDigit = true)
    (h : (digitValue? c).getD 0 = (digitValue? d).getD 0) : c = d := by
  have hcode : 48 ≤ c.toNat ∧ c.toNat ≤ 57 := Char.isDigit_iff_toNat.1 hc
  have hcode' : 48 ≤ d.toNat ∧ d.toNat ≤ 57 := Char.isDigit_iff_toNat.1 hd
  rw [digitValue?_of_ascii hc, digitValue?_of_ascii hd, Option.getD_some, Option.getD_some] at h
  exact Char.toNat_inj.1 (by omega)

/-- The last places of a number are the number that its last digits denote. -/
theorem numeralValue_append_inj {ds es ds' es' : List Char} (hlength : es.length = es'.length)
    (h : numeralValue (ds ++ es) = numeralValue (ds' ++ es')) :
    numeralValue ds = numeralValue ds' ∧ numeralValue es = numeralValue es' := by
  have hlt := numeralValue_lt es
  have hlt' := numeralValue_lt es'
  rw [numeralValue_append, numeralValue_append, ← hlength] at h
  rw [← hlength] at hlt'
  have hpow : 0 < 10 ^ es.length := Nat.pow_pos (by decide)
  have hfront : numeralValue ds = numeralValue ds' := by
    have hquotient := congrArg (· / 10 ^ es.length) h
    simpa only [Nat.mul_comm _ (10 ^ es.length), Nat.mul_add_div hpow, Nat.div_eq_of_lt hlt,
      Nat.div_eq_of_lt hlt', Nat.add_zero] using hquotient
  rw [hfront] at h
  exact ⟨hfront, Nat.add_left_cancel h⟩

theorem numeralValue_singleton (c : Char) : numeralValue [c] = (digitValue? c).getD 0 := by
  simp [numeralValue]

/-- The digits of a number are determined by it, once their length is. -/
theorem numeralValue_inj {ds es : List Char} (hds : ∀ c ∈ ds, c.isDigit = true)
    (hes : ∀ c ∈ es, c.isDigit = true) (hlength : ds.length = es.length)
    (h : numeralValue ds = numeralValue es) : ds = es := by
  induction ds generalizing es with
  | nil => exact (List.length_eq_zero_iff.1 hlength.symm).symm
  | cons c ds ih =>
    cases es with
    | nil => cases hlength
    | cons d es =>
      rw [List.forall_mem_cons] at hds hes
      have hrest : ds.length = es.length := Nat.succ.inj hlength
      obtain ⟨hfirst, h⟩ := numeralValue_append_inj hrest
        (show numeralValue ([c] ++ ds) = numeralValue ([d] ++ es) from h)
      rw [numeralValue_singleton, numeralValue_singleton] at hfirst
      rw [digit_inj hds.1 hes.1 hfirst, ih hds.2 hes.2 hrest h]

theorem digit_eq_zero {c : Char} (hc : c.isDigit = true) : (digitValue? c).getD 0 = 0 ↔ c = '0' :=
  ⟨fun h => digit_inj hc (by decide) h, fun h => h ▸ rfl⟩

/-- Without zeros in front, the length of a numeral tells the size of its number. -/
theorem pow_le_numeralValue {ds : List Char} (hds : ∀ c ∈ ds, c.isDigit = true) (hne : ds ≠ [])
    (hlead : ds.head? ≠ some '0') : 10 ^ (ds.length - 1) ≤ numeralValue ds := by
  obtain ⟨c, rest, rfl⟩ := List.exists_cons_of_ne_nil hne
  have hdigit : (digitValue? c).getD 0 ≠ 0 := fun h =>
    hlead (congrArg some ((digit_eq_zero (hds c List.mem_cons_self)).1 h))
  rw [numeralValue_cons, List.length_cons, Nat.add_sub_cancel]
  exact Nat.le_add_right_of_le (Nat.le_mul_of_pos_left _ (Nat.pos_of_ne_zero hdigit))

/-- A number ends in a zero as its numeral does. -/
theorem numeralValue_mod_ten (ds : List Char) {c : Char} (hc : c.isDigit = true) (hne : c ≠ '0') :
    numeralValue (ds ++ [c]) % 10 ≠ 0 := by
  have hlt := numeralValue_lt [c]
  have hnot := mt (digit_eq_zero hc).1 hne
  rw [List.length_singleton, Nat.pow_one, numeralValue_singleton] at hlt
  rw [numeralValue_append, numeralValue_singleton, List.length_singleton, Nat.pow_one]
  omega

/-! ## Hexadecimal numerals -/

theorem hexValue?_hexDigit {n : Nat} (h : n < 16) : hexValue? (hexDigit n) = some n := by
  have hall : ∀ m < 16, hexValue? (hexDigit m) = some m := by decide
  exact hall n h

/-- **A hexadecimal numeral that is wide enough is read back as its number.** -/
theorem hexNumeral?_hexChars {width n : Nat} (h : n < Nat.pow 16 width) :
    hexNumeral? (hexChars width n) = some n := by
  induction width generalizing n with
  | zero =>
    obtain rfl : n = 0 := Nat.lt_one_iff.1 h
    rfl
  | succ width ih =>
    have hrest : n / 16 < Nat.pow 16 width := Nat.div_lt_of_lt_mul (Nat.mul_comm .. ▸ h)
    have hread := ih hrest
    unfold hexNumeral? at hread ⊢
    rw [hexChars, List.foldl_append, hread]
    simp [hexValue?_hexDigit (Nat.mod_lt n (by decide : 0 < 16))]
    omega

end Spreadsheet.Text
