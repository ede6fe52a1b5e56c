import Spreadsheet.Address
import Spreadsheet.Proofs.Text.Numerals

/-!
# Canonical names of addresses

**Theorem (`parse_name`).** The canonical name of an address is read back as the address, as long as
the number of its row has no more digits than can be read. All addresses have names of their own
(`eq_of_name_eq`).
-/

namespace Spreadsheet

open Text

theorem columnOfLetter?_columnLetter (column : Fin 26) :
    columnOfLetter? (columnLetter column) = some column := by
  revert column
  decide

theorem isBlank_columnLetter (column : Fin 26) : isBlank (columnLetter column) = false := by
  revert column
  decide

namespace Address

/-- The numbers of rows below this one have no more digits than can be read. -/
def rowBound : Nat := Nat.pow 10 maxNumeralDigits

theorem one_lt_rowBound : 1 < rowBound := by
  have hpow : ∀ digits, digits ≠ 0 → 1 < Nat.pow 10 digits :=
    fun _ h => Nat.one_lt_pow h (by decide)
  unfold rowBound
  apply hpow
  decide

theorem significantDigits_decimalChars {n : Nat} (h : 0 < n) :
    significantDigits (decimalChars n) = decimalChars n := by
  have hfirst := head?_decimalChars h
  unfold significantDigits
  cases hdigits : decimalChars n with
  | nil => exact absurd hdigits (decimalChars_ne_nil n)
  | cons c rest =>
    have hc : c ≠ '0' := by
      intro hc
      rw [hdigits, hc] at hfirst
      exact hfirst rfl
    simp [hc]

/-- The column and the digits of the row are found in a canonical name. -/
theorem split?_nameChars (a : Address) :
    split? a.nameChars = some (a.column, decimalChars (a.row + 1)) := by
  have hdigits : ∀ c ∈ decimalChars (a.row + 1), isDigit c = true :=
    fun c hc => isDigit_of_mem_decimalChars hc
  have htake : (decimalChars (a.row + 1)).takeWhile isDigit = decimalChars (a.row + 1) := by
    rw [← List.append_nil (decimalChars (a.row + 1)), List.takeWhile_append_of_pos hdigits]
    rfl
  have hdrop : (decimalChars (a.row + 1)).dropWhile isDigit = [] := by
    rw [← List.append_nil (decimalChars (a.row + 1)), List.dropWhile_append_of_pos hdigits]
    rfl
  unfold split? nameChars
  simp [isBlank_columnLetter, columnOfLetter?_columnLetter, htake, hdrop, decimalChars_ne_nil,
    significantDigits_decimalChars]

/-- **Canonical names are read back.** -/
theorem parse_name {a : Address} (h : a.row + 1 < rowBound) :
    parse a.name = .ok a := by
  have hlength : ¬(decimalChars (a.row + 1)).length > maxNumeralDigits := by
    unfold rowBound at h
    exact Nat.not_lt.2 (length_decimalChars_le h (by decide))
  unfold parse name
  rw [String.toList_ofList, split?_nameChars]
  simp only [if_neg hlength, numeralValue_decimalChars]

/-- Addresses have names of their own. -/
theorem eq_of_name_eq {a b : Address} (h : a.name = b.name) : a = b := by
  have hsplit := split?_nameChars a
  rw [String.ofList_injective h, split?_nameChars] at hsplit
  obtain ⟨hcolumn, hdigits⟩ := Prod.mk.inj (Option.some.inj hsplit)
  have hrow := congrArg numeralValue hdigits
  rw [numeralValue_decimalChars, numeralValue_decimalChars] at hrow
  rw [Address.mk.injEq]
  exact ⟨(Nat.succ.inj hrow).symm, hcolumn.symm⟩

end Address

end Spreadsheet
