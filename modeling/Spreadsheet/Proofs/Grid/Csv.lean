import Spreadsheet.Proofs.Grid.Listing

/-!
# Reading the text of a grid

The text of a grid has a line for each row and a field for each column, with line feeds between the
lines and commas between the fields, and nothing is quoted. It is read by cutting it there
(`Csv.decode`).

**Theorem (`decode_csv_iff`).** This gives the values of the grid row by row exactly if no value has
a comma or a line feed in it (`Csv.IsField`).

One direction is that cutting undoes joining (`Csv.decode_join`). The other one does not depend on
the text: what is cut out of it has no separator (`Csv.isField_of_mem_decode`).
-/

namespace Spreadsheet

namespace Csv

/-- The fields of the lines of a text. -/
def decode (text : String) : List (List String) :=
  (text.toList.splitOn '\n').map fun line => (line.splitOn ',').map String.ofList

/-- The text has no separator in it. -/
def IsField (text : String) : Prop := ',' ∉ text.toList ∧ '\n' ∉ text.toList

instance (text : String) : Decidable (IsField text) := inferInstanceAs (Decidable (_ ∧ _))

/-! ## Cutting texts -/

/-- What is cut out of a list is a part of it without the element at which it is cut. -/
theorem not_mem_of_mem_splitOn {α : Type} [BEq α] [LawfulBEq α] {x : α} {xs part : List α}
    (h : part ∈ xs.splitOn x) : x ∉ part ∧ ∀ y ∈ part, y ∈ xs := by
  induction xs generalizing part with
  | nil =>
    rw [List.splitOn_nil, List.mem_singleton] at h
    rw [h]
    exact ⟨List.not_mem_nil, fun _ => id⟩
  | cons y xs ih =>
    rw [List.splitOn_cons_eq_if_modifyHead] at h
    split at h
    · rcases List.mem_cons.1 h with rfl | h
      · exact ⟨List.not_mem_nil, fun _ hz => absurd hz List.not_mem_nil⟩
      · exact ⟨(ih h).1, fun z hz => List.mem_cons_of_mem y ((ih h).2 z hz)⟩
    · rename_i hy
      obtain ⟨first, rest, hsplit⟩ := List.exists_cons_of_ne_nil (List.splitOn_ne_nil x xs)
      rw [hsplit] at h ih
      rw [List.modifyHead_cons] at h
      rcases List.mem_cons.1 h with rfl | h
      · obtain ⟨hx, hsub⟩ := ih List.mem_cons_self
        have hne : x ≠ y := fun heq => hy (beq_iff_eq.2 heq.symm)
        refine ⟨List.not_mem_cons_of_ne_of_not_mem hne hx, fun z hz => ?_⟩
        rcases List.mem_cons.1 hz with rfl | hz
        · exact List.mem_cons_self
        · exact List.mem_cons_of_mem y (hsub z hz)
      · obtain ⟨hx, hsub⟩ := ih (List.mem_cons_of_mem first h)
        exact ⟨hx, fun z hz => List.mem_cons_of_mem y (hsub z hz)⟩

/-- What is in joined parts is the separator or is in one of them. -/
theorem mem_intercalate {α : Type} {x y : α} {parts : List (List α)}
    (h : y ∈ [x].intercalate parts) : y = x ∨ ∃ part ∈ parts, y ∈ part := by
  induction parts with
  | nil => exact absurd h List.not_mem_nil
  | cons part rest ih =>
    cases rest with
    | nil =>
      rw [List.intercalate_singleton] at h
      exact .inr ⟨part, List.mem_cons_self, h⟩
    | cons next rest =>
      rw [List.intercalate_cons_cons] at h
      rcases List.mem_append.1 h with h | h
      · rcases List.mem_append.1 h with h | h
        · exact .inr ⟨part, List.mem_cons_self, h⟩
        · exact .inl (List.mem_singleton.1 h)
      · rcases ih h with h | ⟨other, hother, h⟩
        · exact .inl h
        · exact .inr ⟨other, List.mem_cons_of_mem part hother, h⟩

/-- A field that is read has no separator in it. -/
theorem isField_of_mem_decode {text value : String} {fields : List String}
    (hfields : fields ∈ decode text) (hvalue : value ∈ fields) : IsField value := by
  obtain ⟨line, hline, rfl⟩ := List.mem_map.1 hfields
  obtain ⟨field, hfield, rfl⟩ := List.mem_map.1 hvalue
  obtain ⟨hcomma, hsub⟩ := not_mem_of_mem_splitOn hfield
  obtain ⟨hfeed, -⟩ := not_mem_of_mem_splitOn hline
  rw [IsField, String.toList_ofList]
  exact ⟨hcomma, fun hmem => hfeed (hsub _ hmem)⟩

/-- Cutting undoes joining. There have to be fields, because an empty line has one. -/
theorem decode_join {rows : List (List String)} (hrows : rows ≠ [])
    (hrow : ∀ fields ∈ rows, fields ≠ [] ∧ ∀ value ∈ fields, IsField value) :
    decode ("\n".intercalate (rows.map (",".intercalate ·))) = rows := by
  have hline : ∀ fields ∈ rows, (",".intercalate fields).toList.splitOn ',' =
      fields.map String.toList := by
    intro fields hmem
    obtain ⟨hne, hfields⟩ := hrow fields hmem
    rw [String.toList_intercalate]
    refine List.splitOn_intercalate ',' (fun chars hchars => ?_) (by simpa using hne)
    obtain ⟨value, hvalue, rfl⟩ := List.mem_map.1 hchars
    exact (hfields value hvalue).1
  have hfeed : ∀ fields ∈ rows, '\n' ∉ (",".intercalate fields).toList := by
    intro fields hmem hfeed
    rw [String.toList_intercalate] at hfeed
    rcases mem_intercalate hfeed with hcomma | ⟨chars, hchars, hin⟩
    · exact absurd hcomma (by decide)
    · obtain ⟨value, hvalue, rfl⟩ := List.mem_map.1 hchars
      exact ((hrow fields hmem).2 value hvalue).2 hin
  have hlines : ("\n".intercalate (rows.map (",".intercalate ·))).toList.splitOn '\n' =
      rows.map fun fields => (",".intercalate fields).toList := by
    rw [String.toList_intercalate, List.map_map]
    refine List.splitOn_intercalate '\n' (fun chars hchars => ?_) (by simpa using hrows)
    obtain ⟨fields, hmem, rfl⟩ := List.mem_map.1 hchars
    exact hfeed fields hmem
  rw [decode, hlines, List.map_map]
  refine (List.map_congr_left fun fields hmem => ?_).trans (List.map_id rows)
  rw [Function.comp_apply, hline fields hmem, List.map_map]
  exact (List.map_congr_left fun value _ => String.ofList_toList).trans (List.map_id fields)

end Csv

/-! ## Grids -/

namespace Grid

variable {g : Grid}

/-- The values of the cells, row by row. -/
def fields (g : Grid) : List (List String) :=
  (List.range g.rows).map fun r =>
    (Address.firstColumns g.columns).map fun c => g.valueAt ⟨r, c⟩

theorem csv_eq_join (g : Grid) :
    g.csv = "\n".intercalate (g.fields.map (",".intercalate ·)) := by
  rw [fields, List.map_map]
  rfl

/-- There are as many lists as rows, and each is as long as there are columns. -/
theorem length_fields (g : Grid) :
    g.fields.length = g.rows ∧ ∀ row ∈ g.fields, row.length = g.columns := by
  refine ⟨by rw [fields, List.length_map, List.length_range], fun row hrow => ?_⟩
  obtain ⟨r, -, rfl⟩ := List.mem_map.1 hrow
  rw [List.length_map, Address.length_firstColumns g.columns_le]

/-- The fields are the values of the cells. -/
theorem forall_fields_iff {p : String → Prop} :
    (∀ row ∈ g.fields, ∀ value ∈ row, p value) ↔ ∀ a c, g.get? a = some c → p c.value := by
  constructor
  · intro h a c hc
    obtain ⟨hrow, hcolumn⟩ := contains_of_get? hc
    have hvalue : g.valueAt a = c.value := by rw [valueAt, hc, Option.getD_some]
    rw [← hvalue]
    exact h _ (List.mem_map.2 ⟨a.row, List.mem_range.2 hrow, rfl⟩) _
      (List.mem_map.2 ⟨a.column, by simpa [Address.firstColumns] using hcolumn, rfl⟩)
  · intro h row hrow value hvalue
    obtain ⟨r, hr, rfl⟩ := List.mem_map.1 hrow
    obtain ⟨column, hcolumn, rfl⟩ := List.mem_map.1 hvalue
    obtain ⟨c, hc⟩ := get?_of_contains (g := g) (a := ⟨r, column⟩)
      ⟨List.mem_range.1 hr, by simpa [Address.firstColumns] using hcolumn⟩
    rw [valueAt, hc, Option.getD_some]
    exact h _ c hc

/-- **The text of a grid can be read** exactly if no value has a separator in it. -/
theorem decode_csv_iff :
    Csv.decode g.csv = g.fields ↔ ∀ a c, g.get? a = some c → Csv.IsField c.value := by
  rw [← forall_fields_iff]
  constructor
  · intro h row hrow value hvalue
    rw [← h] at hrow
    exact Csv.isField_of_mem_decode hrow hvalue
  · intro h
    obtain ⟨hrows, hcolumns⟩ := g.length_fields
    rw [csv_eq_join]
    refine Csv.decode_join (fun hnil => ?_) fun row hrow => ⟨fun hnil => ?_, h row hrow⟩
    · rw [hnil] at hrows
      exact absurd hrows (Nat.ne_of_lt g.rows_pos)
    · have hlength := hcolumns row hrow
      rw [hnil] at hlength
      exact absurd hlength (Nat.ne_of_lt g.columns_pos)

end Grid

end Spreadsheet
