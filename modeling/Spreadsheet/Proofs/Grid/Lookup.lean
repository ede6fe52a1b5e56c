import Spreadsheet.Proofs.Address.Canonical
import Spreadsheet.Proofs.Grid.Listing
import Spreadsheet.Pairs

/-!
# Cells are found by their canonical names

The cells of a grid, each under its canonical name, are a mapping from texts to cells. Cells are
kept by their places instead, so we show that both are the same (`get?_keyed`).

**Theorem (`canonical_lookup`).** Each address has one canonical form, and a text finds a cell
exactly if it is read as a row and a column of the grid: the cell under the canonical name of that
row and column. The canonical names of all cells are listed row by row, each once.
-/

namespace Spreadsheet

namespace Grid

variable {g : Grid} {a : Address} {text : String} {c : Cell}

/-- The cells under their canonical names, row by row. -/
def keyed (g : Grid) : List (String × Cell) := g.entries.map fun e => (e.1.name, e.2)

/-- The cell that a text names. -/
def getNamed? (g : Grid) (text : String) : Option Cell :=
  match g.locate text with
  | .ok a => g.get? a
  | .error _ => none

/-! ## The names of the cells -/

theorem map_fst_keyed (g : Grid) : g.keyed.map Prod.fst = g.addresses.map Address.name := by
  rw [keyed, List.map_map, ← map_fst_entries, List.map_map]
  rfl

theorem nodup_keyed (g : Grid) : (g.keyed.map Prod.fst).Nodup := by
  rw [map_fst_keyed]
  exact List.pairwise_map.2
    ((Address.nodup_block g.rows g.columns).imp fun hne hname => hne (Address.eq_of_name_eq hname))

/-- **Under the canonical name of an address is the cell at the address.** -/
theorem get?_keyed (g : Grid) (a : Address) : Pairs.get? a.name g.keyed = g.get? a := by
  refine Option.ext fun c => ?_
  rw [Pairs.get?_eq_some_iff g.nodup_keyed, keyed, List.mem_map]
  constructor
  · rintro ⟨⟨b, d⟩, hmem, heq⟩
    obtain ⟨hname, rfl⟩ := Prod.mk.inj heq
    rw [← Address.eq_of_name_eq hname]
    exact mem_entries.1 hmem
  · intro hc
    exact ⟨(a, c), mem_entries.2 hc, rfl⟩

/-! ## Finding a cell -/

theorem getNamed?_of_parse (h : Address.parse text = .ok a) : g.getNamed? text = g.get? a := by
  unfold getNamed? locate
  rw [h]
  dsimp only
  by_cases ha : g.Contains a
  · rw [if_pos ha]
  · rw [if_neg ha, get?_eq_none ha]

theorem getNamed?_of_error {e : AddressError} (h : Address.parse text = .error e) :
    g.getNamed? text = none := by
  unfold getNamed? locate
  rw [h]

/-- **A text finds a cell exactly if it is read as an address in the grid.** -/
theorem isSome_getNamed?_iff :
    (g.getNamed? text).isSome = true ↔ ∃ a, Address.parse text = .ok a ∧ g.Contains a := by
  cases hparse : Address.parse text with
  | error e =>
    rw [getNamed?_of_error hparse]
    simp
  | ok a =>
    rw [getNamed?_of_parse hparse]
    constructor
    · intro h
      obtain ⟨c, hc⟩ := Option.isSome_iff_exists.1 h
      exact ⟨a, rfl, contains_of_get? hc⟩
    · rintro ⟨b, hb, hcontains⟩
      obtain rfl := Except.ok.inj hb
      obtain ⟨c, hc⟩ := get?_of_contains hcontains
      rw [hc]
      rfl

/-- **Addresses have one canonical form, and cells are found by it.** -/
theorem canonical_lookup :
    (∀ row column : Int, 1 ≤ row → row < Address.rowBound → 1 ≤ column → column ≤ 26 →
      ∃ a, Address.ofRowColumn row column = .ok a ∧ Address.parse a.name = .ok a ∧
        (a.rowNumber : Int) = row ∧ (a.columnNumber : Int) = column) ∧
    (∀ text form, Address.normalize text = .ok form → Address.normalize form = .ok form) ∧
    (∀ text text' a b, Address.parse text = .ok a → Address.parse text' = .ok b →
      (Address.normalize text = Address.normalize text' ↔
        a.rowNumber = b.rowNumber ∧ a.columnNumber = b.columnNumber)) ∧
    (∀ text, Reference.canonical (Reference.canonical text) = Reference.canonical text) ∧
    ∀ g : Grid,
      (∀ text, (g.getNamed? text).isSome = true ↔
        ∃ a, Address.parse text = .ok a ∧ a.rowNumber ≤ g.rows ∧ a.columnNumber ≤ g.columns) ∧
      (∀ text a, Address.parse text = .ok a → g.getNamed? text = Pairs.get? a.name g.keyed) ∧
      g.keyed.map Prod.fst = g.addresses.map Address.name ∧
      (g.keyed.map Prod.fst).Nodup ∧ g.keyed.length = g.rows * g.columns ∧
      g.addresses.Pairwise Address.Before ∧ ∀ a, a ∈ g.addresses ↔ g.Contains a := by
  refine ⟨fun row column hrow hbound hleft hright => ?_, fun _ _ => Address.normalize_normalize,
    fun text text' a b h h' => ?_, Reference.canonical_canonical, fun g => ⟨fun text => ?_,
    fun text a h => ?_, g.map_fst_keyed, g.nodup_keyed, ?_,
    Address.pairwise_block g.rows g.columns, fun a => mem_addresses⟩⟩
  · obtain ⟨a, ha, hrowNumber, hcolumnNumber⟩ := Address.exists_ofRowColumn hrow ⟨hleft, hright⟩
    have hlt : a.row + 1 < Address.rowBound := by
      rw [← hrowNumber] at hbound
      exact Int.ofNat_lt.1 hbound
    exact ⟨a, ha, Address.parse_name hlt, hrowNumber, hcolumnNumber⟩
  · rw [Address.normalize_eq_iff h h', Address.eq_iff_numbers]
  · exact isSome_getNamed?_iff
  · rw [getNamed?_of_parse h, get?_keyed]
  · rw [← List.length_map (f := Prod.fst), map_fst_keyed, List.length_map]
    exact Address.length_block g.columns_le

/-- A grid of seven rows and two columns. -/
def sevenByTwo : Grid := empty 7 2 (Nat.succ_pos 6) Nat.two_pos (Nat.le_add_right 2 24)

/-- Zeros of other scripts, zeros in front and blanks do not count in the name of the last cell. -/
theorem lookup_spellings :
    Address.parse "b\u066007" = .ok ⟨6, 1⟩ ∧ Address.parse " B7\n" = .ok ⟨6, 1⟩ ∧
      Address.normalize "b\u066007" = Address.normalize " B7\n" ∧
      Address.normalize "B7" = .ok "B7" ∧
      (∃ a, Address.ofRowColumn 7 2 = .ok a ∧ Address.parse a.name = .ok a ∧
        (a.rowNumber : Int) = 7 ∧ (a.columnNumber : Int) = 2) ∧
      (sevenByTwo.getNamed? "b\u066007").isSome = true ∧
      sevenByTwo.getNamed? "b\u066007" = Pairs.get? "B7" sevenByTwo.keyed := by
  have hzero : Address.parse "b\u066007" = .ok ⟨6, 1⟩ := by decide +kernel
  have hblank : Address.parse " B7\n" = .ok ⟨6, 1⟩ := by decide +kernel
  have hform : Address.normalize " B7\n" = .ok "B7" := by decide +kernel
  have hbound : 10 ^ 1 ≤ Address.rowBound := Address.pow_le_rowBound (by decide)
  have hrow : ((7 : Nat) : Int) < Address.rowBound :=
    Int.ofNat_lt.2 (Nat.lt_of_lt_of_le (by decide : 7 < 10 ^ 1) hbound)
  obtain ⟨hnumbers, hidempotent, hforms, -, hgrids⟩ := canonical_lookup
  obtain ⟨hfinds, hkeyed, -⟩ := hgrids sevenByTwo
  exact ⟨hzero, hblank, (hforms _ _ _ _ hzero hblank).2 ⟨rfl, rfl⟩, hidempotent _ _ hform,
    hnumbers 7 2 (by decide) hrow (by decide) (by decide),
    (hfinds _).2 ⟨_, hzero, by decide, by decide⟩, hkeyed _ _ hzero⟩

end Grid

end Spreadsheet
