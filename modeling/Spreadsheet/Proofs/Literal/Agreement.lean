import Mathlib
import Spreadsheet.Proofs.Number.Canonical
import Spreadsheet.Proofs.Number.Percent
import Spreadsheet.Proofs.Substitution.Tokens

/-!
# The grammars of literals agree

A literal is accepted by one grammar when it is typed, cleaned to a token by another one when a formula
refers to its cell, and read as a number by a third one when the formula is evaluated.

**Theorem (`evaluate_token_of_isComplete`).** Of a literal without blanks at its ends the token is the
literal without its dollar sign, and its value is the double nearest to its decimal digits, divided by a
hundred if a percent sign follows. It fails only if the digits denote a number that is too large for a
double.
-/

namespace Spreadsheet.Literal

open Text Arithmetic Number

variable {text : String} {digits whole fraction : List Char}

/-! ## Reading -/

theorem decimalNumber_lt_iff (whole fraction : List Char) (bound : Nat) :
    decimalNumber whole fraction < bound ↔
      numeralValue (whole ++ fraction) < bound * 10 ^ fraction.length := by
  rw [decimalNumber, div_lt_iff₀ (by positivity)]
  exact_mod_cast Iff.rfl

theorem decimalValue_eq_nearest (whole fraction : List Char) :
    decimalValue whole fraction =
      nearest false (numeralValue (whole ++ fraction)) (10 ^ fraction.length) :=
  ofDecimal_eq_nearest false _ _

/-- A decimal that is not too large is read as the double nearest to it, which has no sign. -/
theorem isNearest_decimalValue (h : decimalNumber whole fraction < overflow) :
    IsNearest (decimalNumber whole fraction) (decimalValue whole fraction) ∧
      (decimalValue whole fraction).toBits.toNat < 2 ^ 63 := by
  have hden : 0 < 10 ^ fraction.length := Nat.pow_pos (by decide)
  have hlt := (decimalNumber_lt_iff whole fraction overflow).1 h
  rw [decimalValue_eq_nearest]
  constructor
  · have hnearest := isNearest_nearest false hden hlt
    rw [cast_signed_false, Nat.cast_pow, Nat.cast_ofNat] at hnearest
    exact hnearest
  · have hread := read_ofSignBits false ((nearestBits_lt_infinityBits_iff hden).2 hlt)
    rw [nearest, ← Nat.not_le, sign_of_read hread]
    exact Bool.false_ne_true

/-- An infinity is not finite, nor is its hundredth part. -/
theorem isFinite_infinity :
    isFinite (ofSignBits false infinityBits) = false ∧
      isFinite (ofSignBits false infinityBits / 100) = false := by
  decide +kernel

/-- A decimal that is too large is read as an infinity, and so is its hundredth part. -/
theorem isFinite_decimalValue (h : overflow ≤ decimalNumber whole fraction) :
    isFinite (decimalValue whole fraction) = false ∧
      isFinite (decimalValue whole fraction / 100) = false := by
  have hden : 0 < 10 ^ fraction.length := Nat.pow_pos (by decide)
  have hle := Nat.not_lt.1 (mt (decimalNumber_lt_iff whole fraction overflow).2 (not_lt.2 h))
  rw [decimalValue_eq_nearest, nearest, nearestBits_eq_infinityBits hden hle]
  exact isFinite_infinity

/-- The value of a numeral with an optional percent sign. -/
theorem evaluate_token {token : String} {percent : Bool} (hnumeral : Numeral digits whole fraction)
    (htoken : token.toList = digits ++ percentSign percent) :
    Arithmetic.evaluate token =
      let x := if percent then decimalValue whole fraction / 100 else decimalValue whole fraction
      if isFinite x then .ok x else .error .notFinite := by
  rw [Arithmetic.evaluate, htoken]
  cases percent with
  | false =>
    have hvalue := (Token.plain hnumeral).value
    simp only [percentSign, Bool.false_eq_true, if_false, List.append_nil, hvalue, Tree.value]
  | true =>
    have hvalue := (Token.percent hnumeral).value
    simp only [percentSign, if_true, hvalue, Tree.value, Except.map]

/-- **The grammars of literals agree.** -/
theorem evaluate_token_of_isComplete (hstrip : strip text = text) (h : isComplete text = true) :
    ∃ token digits whole fraction percent,
      token? text = some token ∧ token.toList = dropOptional '$' text.toList ∧
      token.toList = digits ++ percentSign percent ∧
      Numeral digits whole fraction ∧
      (decimalNumber whole fraction < overflow →
        ∃ x, IsNearest (decimalNumber whole fraction) x ∧ x.toBits.toNat < 2 ^ 63 ∧
          Arithmetic.evaluate token = .ok (if percent then x / 100 else x)) ∧
      (overflow ≤ decimalNumber whole fraction →
        Arithmetic.evaluate token = .error .notFinite) := by
  obtain ⟨digits, whole, fraction, percent, hnumeral, hsplit⟩ :=
    exists_numeral_of_isComplete hstrip h
  have hchars : tokenChars? text.toList = some (dropOptional '$' text.toList) := by
    refine tokenChars?_eq (fun c hc => ?_) h
    rw [hsplit] at hc
    rcases List.mem_append.1 hc with hc | hc
    · exact not_isSeparator hnumeral hc
    · rw [eq_of_mem_percentSign hc]
      decide
  have htoken : (String.ofList (dropOptional '$' text.toList)).toList =
      dropOptional '$' text.toList := String.toList_ofList
  have hvalue := evaluate_token hnumeral (htoken.trans hsplit)
  dsimp only at hvalue
  refine ⟨_, digits, whole, fraction, percent, ?_, htoken, htoken.trans hsplit, hnumeral,
    fun hlt => ?_, fun hle => ?_⟩
  · rw [token?, hchars, Option.map_some]
  · obtain ⟨hnearest, hsign⟩ := isNearest_decimalValue hlt
    have hfinite : isFinite (if percent = true then decimalValue whole fraction / 100
        else decimalValue whole fraction) = true := by
      split
      · exact isFinite_div_hundred hnearest.finite
      · exact hnearest.finite
    rw [if_pos hfinite] at hvalue
    exact ⟨_, hnearest, hsign, hvalue⟩
  · obtain ⟨hinfinite, hpercent⟩ := isFinite_decimalValue hle
    have hinfinite : isFinite (if percent = true then decimalValue whole fraction / 100
        else decimalValue whole fraction) = false := by
      split
      · exact hpercent
      · exact hinfinite
    rw [hinfinite] at hvalue
    exact hvalue

/-- Digits of any script are read, here those of twelve and a half percent. -/
theorem evaluate_token_of_isComplete_devanagari :
    isComplete "$१२.५%" = true ∧ token? "$१२.५%" = some "१२.५%" ∧
      ∃ x, IsNearest (25 / 2) x ∧ Arithmetic.evaluate "१२.५%" = .ok (x / 100) := by
  have hstrip : strip "$१२.५%" = "$१२.५%" := by decide +kernel
  have hcomplete : isComplete "$१२.५%" = true := by decide +kernel
  obtain ⟨token, digits, whole, fraction, percent, htoken, hchars, hsplit, hnumeral, hread, -⟩ :=
    evaluate_token_of_isComplete hstrip hcomplete
  obtain rfl : token = "१२.५%" := String.toList_injective (hchars.trans (by decide +kernel))
  obtain ⟨rfl, rfl⟩ : percent = true ∧ digits = ['१', '२', '.', '५'] := by
    cases percent with
    | false =>
      rw [percentSign, if_neg Bool.false_ne_true, List.append_nil] at hsplit
      exact absurd (hsplit ▸ by decide +kernel) (hnumeral.not_mem (c := '%') (by decide) (by decide))
    | true => exact ⟨rfl, (List.append_cancel_right (hsplit.symm.trans (by decide +kernel)))⟩
  have hwhole : ∀ c ∈ ['१', '२'], isDigit c = true := List.all_eq_true.1 (by decide)
  have hfraction : ∀ c ∈ ['५'], isDigit c = true := List.all_eq_true.1 (by decide)
  obtain ⟨rfl, rfl⟩ := hnumeral.unique (.point (.inl (List.cons_ne_nil _ _)) hwhole hfraction)
  have hnumber : decimalNumber ['१', '२'] ['५'] = 25 / 2 := by
    have hvalue : numeralValue (['१', '२'] ++ ['५']) = 125 := by decide
    rw [decimalNumber, hvalue]
    norm_num
  rw [hnumber] at hread
  have hoverflow : (13 : ℚ) ≤ overflow := Nat.cast_le.2 (by decide +kernel : 13 ≤ overflow)
  obtain ⟨x, hx, -, hvalue⟩ := hread (lt_of_lt_of_le (by norm_num) hoverflow)
  exact ⟨hcomplete, htoken, x, hx, hvalue⟩

end Spreadsheet.Literal
