import Mathlib.Data.List.Basic
import Spreadsheet.Sheet

/-!
# What the listings of a grid say

A grid is listed as entries, formula cells, errors, a snapshot and text. Each listing is
characterized by the cells at the addresses, so that later proofs speak of cells only.

**Main facts.** Two grids with the same snapshot hold the same contents (`content_of_snapshot_eq`),
and text depends on the size and the values alone (`csv_congr`).
-/

namespace Spreadsheet

/-! ## Addresses -/

theorem Address.length_firstColumns {columns : Nat} (h : columns ≤ 26) :
    (Address.firstColumns columns).length = columns := by
  have hall : ∀ n : Fin 27, (Address.firstColumns n).length = n := by decide
  exact hall ⟨columns, Nat.lt_succ_of_le h⟩

/-- An address is listed before another one, if it is in an earlier row, or further left in the same
row. -/
def Address.Before (a b : Address) : Prop :=
  a.row < b.row ∨ a.row = b.row ∧ a.column < b.column

/-- The addresses of a block are listed row by row. -/
theorem Address.pairwise_block (rows columns : Nat) :
    (Address.block rows columns).Pairwise Address.Before := by
  have hcolumns : (Address.firstColumns columns).Pairwise (· < ·) :=
    (List.pairwise_lt_finRange 26).sublist List.filter_sublist
  refine List.pairwise_flatMap.2 ⟨fun r _ => ?_, ?_⟩
  · exact List.pairwise_map.2 (hcolumns.imp fun hcd => .inr ⟨rfl, hcd⟩)
  · refine List.pairwise_lt_range.imp ?_
    intro r s hrs a ha b hb
    obtain ⟨c, -, rfl⟩ := List.mem_map.1 ha
    obtain ⟨d, -, rfl⟩ := List.mem_map.1 hb
    exact .inl hrs

theorem Address.Before.ne {a b : Address} (h : a.Before b) : a ≠ b := by
  rintro rfl
  rcases h with hrow | ⟨-, hcolumn⟩
  · exact Nat.lt_irrefl _ hrow
  · exact Fin.lt_irrefl _ hcolumn

theorem Address.nodup_block (rows columns : Nat) : (Address.block rows columns).Nodup :=
  (Address.pairwise_block rows columns).imp Address.Before.ne

theorem Address.length_block {rows columns : Nat} (h : columns ≤ 26) :
    (Address.block rows columns).length = rows * columns := by
  simp only [Address.block, List.length_flatMap, List.length_map, length_firstColumns h,
    List.map_const', List.length_range, List.sum_replicate_nat]

namespace Grid

variable {g k : Grid} {a : Address}

/-! ## Members of listings -/

theorem get?_of_contains (h : g.Contains a) : ∃ c, g.get? a = some c :=
  ⟨_, dif_pos h⟩

theorem get?_eq_none (h : ¬ g.Contains a) : g.get? a = none := dif_neg h

/-- There is an entry for each address, in order. -/
theorem map_fst_entries (g : Grid) : g.entries.map Prod.fst = g.addresses := by
  unfold entries
  rw [List.map_filterMap]
  refine (List.filterMap_congr fun a ha => ?_).trans List.filterMap_some
  obtain ⟨c, hc⟩ := get?_of_contains (mem_addresses.1 ha)
  rw [hc]
  rfl

theorem mem_entries {c : Cell} : (a, c) ∈ g.entries ↔ g.get? a = some c := by
  unfold entries
  rw [List.mem_filterMap]
  constructor
  · rintro ⟨b, -, hb⟩
    obtain ⟨d, hd, heq⟩ := Option.map_eq_some_iff.1 hb
    cases heq
    exact hd
  · intro hc
    exact ⟨a, mem_addresses.2 (contains_of_get? hc), by rw [hc]; rfl⟩

theorem mem_formulaCells {f : String} :
    (a, f) ∈ g.formulaCells ↔ ∃ c, g.get? a = some c ∧ c.formula = some f := by
  unfold formulaCells
  rw [List.mem_filterMap]
  constructor
  · rintro ⟨⟨b, c⟩, hmem, hb⟩
    obtain ⟨f', hf, heq⟩ := Option.map_eq_some_iff.1 hb
    cases heq
    exact ⟨c, mem_entries.1 hmem, hf⟩
  · rintro ⟨c, hc, hf⟩
    exact ⟨(a, c), mem_entries.2 hc, by simp only [hf, Option.map_some]⟩

/-- The formula cells are listed row by row. -/
theorem pairwise_formulaCells (g : Grid) :
    (g.formulaCells.map Prod.fst).Pairwise Address.Before := by
  have hentries : (g.entries.map Prod.fst).Pairwise Address.Before := by
    rw [map_fst_entries]
    exact Address.pairwise_block g.rows g.columns
  unfold formulaCells
  rw [List.pairwise_map, List.pairwise_filterMap]
  refine (List.pairwise_map.1 hentries).imp ?_
  intro e d hed p hp q hq
  obtain ⟨f, -, rfl⟩ := Option.map_eq_some_iff.1 hp
  obtain ⟨f', -, rfl⟩ := Option.map_eq_some_iff.1 hq
  exact hed

/-- No formula cell is listed twice. -/
theorem nodup_formulaCells (g : Grid) : (g.formulaCells.map Prod.fst).Nodup :=
  g.pairwise_formulaCells.imp Address.Before.ne

theorem hasErrors_iff : g.hasErrors = true ↔ ∃ a c, g.get? a = some c ∧ c.isError = true := by
  unfold hasErrors
  rw [List.any_eq_true]
  constructor
  · rintro ⟨⟨a, c⟩, hmem, herr⟩
    exact ⟨a, c, mem_entries.1 hmem, herr⟩
  · rintro ⟨a, c, hc, herr⟩
    exact ⟨(a, c), mem_entries.2 hc, herr⟩

theorem mem_snapshot {x : String × Option String} :
    (a, x) ∈ g.snapshot ↔ ∃ c, g.get? a = some c ∧ c.content = x := by
  unfold snapshot
  rw [List.mem_map]
  constructor
  · rintro ⟨⟨b, c⟩, hmem, heq⟩
    cases heq
    exact ⟨c, mem_entries.1 hmem, rfl⟩
  · rintro ⟨c, hc, rfl⟩
    exact ⟨(a, c), mem_entries.2 hc, rfl⟩

/-! ## Snapshots -/

theorem map_fst_snapshot (g : Grid) : g.snapshot.map Prod.fst = g.addresses := by
  rw [snapshot, List.map_map, ← map_fst_entries]
  rfl

theorem nodup_snapshot (g : Grid) : (g.snapshot.map Prod.fst).Nodup := by
  rw [map_fst_snapshot]
  exact Address.nodup_block g.rows g.columns

theorem get?_empty {rows columns : Nat} {rows_pos : 0 < rows} {columns_pos : 0 < columns}
    {columns_le : columns ≤ 26} {c : Cell}
    (h : (empty rows columns rows_pos columns_pos columns_le).get? a = some c) :
    c = Cell.empty := by
  unfold get? at h
  split at h
  · rw [← Option.some.inj h]
    exact Vector.getElem_replicate _
  · cases h

/-- A new grid holds empty cells. -/
theorem get?_ofSize {rows columns : Int} {c : Cell} (h : ofSize rows columns = .ok g)
    (hc : g.get? a = some c) : c = Cell.empty := by
  unfold ofSize at h
  split at h
  · cases h
  · split at h
    · cases h
      exact get?_empty hc
    · cases h

/-- A grid has a first cell, so its snapshot is not the empty one of a sheet never swept. -/
theorem snapshot_ne_nil (g : Grid) : g.snapshot ≠ [] := by
  obtain ⟨c, hc⟩ := get?_of_contains (a := ⟨0, 0⟩) ⟨g.rows_pos, g.columns_pos⟩
  exact List.ne_nil_of_mem (mem_snapshot.2 ⟨c, hc, rfl⟩)

/-- Grids with the same snapshot hold the same content at every address. -/
theorem content_of_snapshot_eq (h : g.snapshot = k.snapshot) (a : Address) :
    (g.get? a).map Cell.content = (k.get? a).map Cell.content := by
  refine Option.ext fun x => ?_
  rw [Option.map_eq_some_iff, Option.map_eq_some_iff, ← mem_snapshot, ← mem_snapshot, h]

/-! ## Sizes and texts -/

theorem SameSize.refl (g : Grid) : g.SameSize g := ⟨rfl, rfl⟩

theorem SameSize.symm (h : g.SameSize k) : k.SameSize g := ⟨h.1.symm, h.2.symm⟩

theorem SameSize.trans {m : Grid} (h : g.SameSize k) (h' : k.SameSize m) : g.SameSize m :=
  ⟨h.1.trans h'.1, h.2.trans h'.2⟩

theorem contains_congr (h : g.SameSize k) (a : Address) : g.Contains a ↔ k.Contains a := by
  unfold Contains
  rw [h.1, h.2]

theorem sameSize_set (g : Grid) (a : Address) (c : Cell) : (g.set a c).SameSize g := by
  unfold set
  split
  · exact ⟨rfl, rfl⟩
  · exact .refl g

/-- The snapshot depends on the size and on the cells. -/
theorem snapshot_congr (hsize : g.SameSize k) (h : ∀ a, g.get? a = k.get? a) :
    g.snapshot = k.snapshot := by
  have haddresses : g.addresses = k.addresses := by
    rw [addresses, hsize.1, hsize.2, ← addresses]
  simp only [snapshot, entries, haddresses, h]

/-- The value that a grid shows at an address. -/
def valueAt (g : Grid) (a : Address) : String := ((g.get? a).getD Cell.empty).value

/-- Text depends on the size and on the values alone. -/
theorem csv_congr (hsize : g.SameSize k) (h : ∀ a, g.valueAt a = k.valueAt a) :
    g.csv = k.csv := by
  have hrow : ∀ r, ((Address.firstColumns g.columns).map fun c => g.valueAt ⟨r, c⟩) =
      (Address.firstColumns k.columns).map fun c => k.valueAt ⟨r, c⟩ := by
    intro r
    rw [hsize.2]
    exact List.map_congr_left fun c _ => h ⟨r, c⟩
  have hrows : ((List.range g.rows).map fun r =>
        ",".intercalate ((Address.firstColumns g.columns).map fun c => g.valueAt ⟨r, c⟩)) =
      (List.range k.rows).map fun r =>
        ",".intercalate ((Address.firstColumns k.columns).map fun c => k.valueAt ⟨r, c⟩) := by
    rw [hsize.1]
    exact List.map_congr_left fun r _ => congrArg _ (hrow r)
  exact congrArg ("\n".intercalate ·) hrows

theorem valueAt_set (g : Grid) (a b : Address) (c : Cell) (h : g.Contains a) :
    (g.set a c).valueAt b = if b = a then c.value else g.valueAt b := by
  unfold valueAt
  rw [get?_set h]
  by_cases hb : b = a
  · rw [if_pos hb, if_pos hb, Option.getD_some]
  · rw [if_neg hb, if_neg hb]

end Grid

end Spreadsheet
