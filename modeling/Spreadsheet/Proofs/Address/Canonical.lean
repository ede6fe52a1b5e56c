import Spreadsheet.Proofs.Address.Names

/-!
# Addresses have one canonical form

An address may be written with a small letter, with zeros in front of its row, in the digits of any
script and with blanks around. Its canonical form is its canonical name.

**Main facts.** What is read has a row number that is not too long, so its canonical name is read
back (`parse_name_of_parse`). Two texts have the same canonical form exactly if they are read as the
same row and column (`normalize_eq_iff`). Reading a canonical name never gives another address, also
where the row number is too long to be read at all (`eq_of_parse_name`).
-/

namespace Spreadsheet

open Text

namespace Address

variable {a b : Address} {text text' form : String}

/-! ## Rows and columns counted from one -/

/-- Each row and column counted from one has an address. -/
theorem exists_ofRowColumn {row column : Int} (hrow : 1 ≤ row)
    (hcolumn : 1 ≤ column ∧ column ≤ 26) :
    ∃ a, ofRowColumn row column = .ok a ∧ (a.rowNumber : Int) = row ∧
      (a.columnNumber : Int) = column := by
  refine ⟨⟨(row - 1).toNat, ⟨(column - 1).toNat, by omega⟩⟩, ?_, ?_, ?_⟩
  · rw [ofRowColumn, if_neg (by omega), columnOfIndex, dif_pos hcolumn]
    rfl
  · dsimp only [rowNumber]
    omega
  · dsimp only [columnNumber]
    omega

theorem eq_iff_numbers :
    a = b ↔ a.rowNumber = b.rowNumber ∧ a.columnNumber = b.columnNumber := by
  obtain ⟨r, c⟩ := a
  obtain ⟨r', c'⟩ := b
  rw [Address.mk.injEq, rowNumber, rowNumber, columnNumber, columnNumber, Nat.add_right_cancel_iff,
    Nat.add_right_cancel_iff, Fin.ext_iff]

/-! ## Names that are read -/

theorem pow_le_rowBound {digits : Nat} (h : digits ≤ maxNumeralDigits) :
    10 ^ digits ≤ rowBound := by
  have hpow : ∀ {m n : Nat}, m ≤ n → 10 ^ m ≤ Nat.pow 10 n := Nat.pow_le_pow_right (by decide)
  unfold rowBound
  exact hpow h

/-- The number of a row that is read has no more digits than can be read. -/
theorem row_lt_of_parse (h : parse text = .ok a) : a.row + 1 < rowBound := by
  unfold parse at h
  split at h
  · cases h
  · rename_i column digits hsplit
    split at h
    · cases h
    · rename_i hlength
      split at h
      · cases h
      · rename_i row hvalue
        obtain rfl := Except.ok.inj h
        calc row + 1 = numeralValue digits := hvalue.symm
          _ < 10 ^ digits.length := numeralValue_lt digits
          _ ≤ rowBound := pow_le_rowBound (Nat.not_lt.1 hlength)

/-- The canonical name of what was read is read back. -/
theorem parse_name_of_parse (h : parse text = .ok a) : parse a.name = .ok a :=
  parse_name (row_lt_of_parse h)

/-- A canonical name is not read as another address. -/
theorem eq_of_parse_name (h : parse a.name = .ok b) : a = b := by
  unfold parse name at h
  rw [String.toList_ofList, split?_nameChars] at h
  dsimp only at h
  split at h
  · cases h
  · rw [numeralValue_decimalChars] at h
    exact Except.ok.inj h

/-! ## Canonical forms -/

/-- The canonical form of a text that is an address. -/
def normalize (text : String) : Except AddressError String := (parse text).map name

theorem normalize_of_parse (h : parse text = .ok a) : normalize text = .ok a.name := by
  rw [normalize, h]
  rfl

theorem exists_of_normalize (h : normalize text = .ok form) :
    ∃ a, parse text = .ok a ∧ a.name = form := by
  unfold normalize at h
  cases hparse : parse text with
  | error e =>
    rw [hparse] at h
    cases h
  | ok a =>
    rw [hparse] at h
    exact ⟨a, rfl, Except.ok.inj h⟩

/-- **A canonical form is its own canonical form.** -/
theorem normalize_normalize (h : normalize text = .ok form) : normalize form = .ok form := by
  obtain ⟨a, hparse, rfl⟩ := exists_of_normalize h
  exact normalize_of_parse (parse_name_of_parse hparse)

/-- **Canonical forms tell addresses apart**, and nothing else. -/
theorem normalize_eq_iff (h : parse text = .ok a) (h' : parse text' = .ok b) :
    normalize text = normalize text' ↔ a = b := by
  rw [normalize_of_parse h, normalize_of_parse h', Except.ok.injEq]
  exact ⟨eq_of_name_eq, congrArg name⟩

end Address

namespace Reference

/-- The canonical form of a text in a formula. A text that is no address stays as it is. -/
def canonical (text : String) : String := (ofText text).name

theorem canonical_of_parse {text : String} {a : Address} (h : Address.parse text = .ok a) :
    canonical text = a.name := by
  rw [canonical, ofText, h]
  rfl

theorem canonical_of_error {text : String} {e : AddressError} (h : Address.parse text = .error e) :
    canonical text = text := by
  rw [canonical, ofText, h]
  rfl

/-- A canonical form refers to the same as the text. -/
theorem ofText_canonical (text : String) : ofText (canonical text) = ofText text := by
  cases h : Address.parse text with
  | ok a =>
    rw [canonical_of_parse h, ofText, Address.parse_name_of_parse h, ofText, h]
  | error e => rw [canonical_of_error h]

theorem canonical_canonical (text : String) : canonical (canonical text) = canonical text :=
  congrArg name (ofText_canonical text)

/-- References in texts are told apart by their names. -/
theorem ofText_inj_name {text text' : String} :
    (ofText text).name = (ofText text').name ↔ ofText text = ofText text' := by
  refine ⟨fun h => ?_, congrArg name⟩
  rw [← ofText_canonical text, ← ofText_canonical text']
  exact congrArg ofText h

end Reference

end Spreadsheet
