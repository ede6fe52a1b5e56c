import Spreadsheet.Proofs.Grid.Listing
import Spreadsheet.Proofs.Recalculation.Results
import Spreadsheet.Snapshot

/-!
# What entries describe

A grid is restored from the entries of any object, one after another.

**Theorem (`get?_restore`).** The entries determine the cells. A cell is the one that the last entry at
its address describes; entries that are no objects, or whose keys name no cell of the grid, do nothing.

So what is said of all cells of the grid before, and of all that entries describe, is said of all cells
after (`all_restore`). Nothing stops this but an entry for a cell of the grid with a value that is nested
too deep to be shown (`ofSnapshot_of_size`).
-/

namespace Spreadsheet

variable {g : Grid} {p : Cell → Prop} {c : Cell}

namespace Grid

/-- All cells have a property. -/
def All (p : Cell → Prop) (g : Grid) : Prop := ∀ a c, g.get? a = some c → p c

theorem All.set (h : g.All p) (hc : p c) (a : Address) : (g.set a c).All p := by
  intro b d hd
  rcases eq_or_get?_of_set hd with rfl | hd
  · exact hc
  · exact h b d hd

end Grid

namespace Snapshot

variable {entries : List (JsonText × Json)}

/-! ## One entry -/

/-- The cell at an address that an entry describes. -/
def cellOf? (a : Address) (e : JsonText × Json) : Option Cell :=
  if addressOfKey? e.1 = some a then e.2.entries?.map cellOfEntry else none

theorem sameSize_restoreEntry (g : Grid) (key : JsonText) (entry : Json) :
    (restoreEntry g key entry).1.SameSize g := by
  unfold restoreEntry
  split
  · exact .refl g
  · split
    · split
      · exact Grid.sameSize_set g _ _
      · exact .refl g
    · exact .refl g

/-- **The step lemma.** An entry puts the cell that it describes into the grid. -/
theorem get?_restoreEntry (g : Grid) (e : JsonText × Json) (a : Address) :
    (restoreEntry g e.1 e.2).1.get? a = (g.get? a).map fun c => (cellOf? a e).getD c := by
  have hsame : cellOf? a e = none → g.get? a = (g.get? a).map fun c => (cellOf? a e).getD c := by
    intro hnone
    rw [hnone]
    exact Option.map_id'.symm
  unfold restoreEntry
  cases hkey : addressOfKey? e.1 with
  | none => exact hsame (if_neg (by simp [hkey]))
  | some b =>
    dsimp only
    by_cases hab : a = b
    · rw [← hab] at hkey ⊢
      by_cases ha : g.Contains a
      · rw [if_pos ha]
        cases hentries : e.2.entries? with
        | none =>
          refine hsame ?_
          rw [cellOf?, hentries]
          exact ite_self none
        | some fields =>
          obtain ⟨c, hc⟩ := Grid.get?_of_contains ha
          have hcell : cellOf? a e = some (cellOfEntry fields) := by
            rw [cellOf?, if_pos hkey, hentries]
            rfl
          dsimp only
          rw [Grid.get?_set ha, if_pos rfl, hcell, hc]
          rfl
      · rw [if_neg ha, Grid.get?_eq_none ha]
        rfl
    · -- The entry is for another cell, if for any.
      have hnone : cellOf? a e = none := if_neg (by simp [hkey, Ne.symm hab])
      split
      · split
        · rw [Grid.get?_set_of_ne hab]
          exact hsame hnone
        · exact hsame hnone
      · exact hsame hnone

/-! ## All entries -/

/-- The cell at an address that entries describe. Of more than one the last counts. -/
def described? (entries : List (JsonText × Json)) (a : Address) : Option Cell :=
  entries.reverse.findSome? (cellOf? a)

theorem described?_cons (e : JsonText × Json) (rest : List (JsonText × Json)) (a : Address) :
    described? (e :: rest) a = (described? rest a).or (cellOf? a e) := by
  unfold described?
  rw [List.reverse_cons, List.findSome?_append, List.findSome?_singleton]

/-- Nothing is described by entries of which none is for a cell. -/
theorem described?_eq_none_iff {a : Address} :
    described? entries a = none ↔ ∀ e ∈ entries, cellOf? a e = none := by
  simp only [described?, List.findSome?_eq_none_iff, List.mem_reverse]

theorem exists_cellOf? {a : Address} (h : described? entries a = some c) :
    ∃ e ∈ entries, cellOf? a e = some c := by
  obtain ⟨e, he, hcell⟩ := List.exists_of_findSome?_eq_some h
  exact ⟨e, List.mem_reverse.1 he, hcell⟩

theorem exists_of_described? {a : Address} (h : described? entries a = some c) :
    ∃ e ∈ entries, ∃ fields, e.2.entries? = some fields ∧ c = cellOfEntry fields := by
  obtain ⟨e, he, hcell⟩ := exists_cellOf? h
  unfold cellOf? at hcell
  split at hcell
  · obtain ⟨fields, hfields, hc⟩ := Option.map_eq_some_iff.1 hcell
    exact ⟨e, he, fields, hfields, hc.symm⟩
  · cases hcell

theorem restore_cons (g : Grid) (e : JsonText × Json) (rest : List (JsonText × Json)) :
    (restore g (e :: rest)).1 = (restore (restoreEntry g e.1 e.2).1 rest).1 := by
  obtain ⟨key, entry⟩ := e
  rfl

theorem sameSize_restore (g : Grid) (entries : List (JsonText × Json)) :
    (restore g entries).1.SameSize g := by
  induction entries generalizing g with
  | nil => exact .refl g
  | cons e rest ih =>
    rw [restore_cons]
    exact (ih _).trans (sameSize_restoreEntry g e.1 e.2)

/-- **The entries determine the cells.** Each cell is the one that the entries describe; if they
describe none, it stays. -/
theorem get?_restore (g : Grid) (entries : List (JsonText × Json)) (a : Address) :
    (restore g entries).1.get? a = (g.get? a).map fun c => (described? entries a).getD c := by
  induction entries generalizing g with
  | nil => exact Option.map_id'.symm
  | cons e rest ih =>
    rw [restore_cons, ih, get?_restoreEntry, Option.map_map, described?_cons]
    cases described? rest a <;> rfl

/-! ## Entries that cannot be shown -/

/-- An entry is for a cell of a grid of a given size, and the value or the formula in it is no text
and has too many values inside each other. -/
def TooDeep (rows columns : Int) (e : JsonText × Json) : Prop :=
  ∃ a fields, addressOfKey? e.1 = some a ∧ (a.row : Int) < rows ∧ (a.column.val : Int) < columns ∧
    e.2 = .object fields ∧ ∃ key ∈ ["value", "formula"],
      (∀ text, Json.lookup key fields ≠ .string text) ∧
        Json.maxShown < (Json.lookup key fields).depth

theorem isShowable_eq_false_iff {v : Json} :
    v.isShowable = false ↔ (∀ text, v ≠ .string text) ∧ Json.maxShown < v.depth := by
  cases v <;> simp [Json.isShowable]

theorem stops_iff {rows columns : Int} (hrows : (g.rows : Int) = rows)
    (hcolumns : (g.columns : Int) = columns) (e : JsonText × Json) :
    stops g e.1 e.2 = true ↔ TooDeep rows columns e := by
  have hcontains : ∀ a, g.Contains a ↔ (a.row : Int) < rows ∧ (a.column.val : Int) < columns :=
    fun a => by rw [← hrows, ← hcolumns, Int.ofNat_lt, Int.ofNat_lt]; rfl
  have hfields : ∀ fields, isShowable fields = false ↔ ∃ key ∈ ["value", "formula"],
      (∀ text, Json.lookup key fields ≠ .string text) ∧
        Json.maxShown < (Json.lookup key fields).depth := by
    intro fields
    rw [isShowable, Bool.and_eq_false_iff, isShowable_eq_false_iff, isShowable_eq_false_iff]
    simp
  unfold stops TooDeep
  constructor
  · intro h
    split at h
    · rename_i a fields hkey hentries
      rw [Bool.and_eq_true, decide_eq_true_eq, Bool.not_eq_true', hcontains, hfields] at h
      obtain ⟨⟨hrow, hcolumn⟩, hdeep⟩ := h
      cases hvalue : e.2 with
      | object own =>
        rw [hvalue] at hentries
        cases hentries
        exact ⟨a, fields, hkey, hrow, hcolumn, rfl, hdeep⟩
      | _ =>
        rw [hvalue] at hentries
        cases hentries
    · cases h
  · rintro ⟨a, fields, hkey, hrow, hcolumn, hvalue, hdeep⟩
    rw [hkey, hvalue]
    simp only [Json.entries?, Bool.and_eq_true, decide_eq_true_eq, Bool.not_eq_true']
    exact ⟨(hcontains a).2 ⟨hrow, hcolumn⟩, (hfields fields).2 hdeep⟩

/-- **Restoring fails for entries that cannot be shown**, and for no others. -/
theorem ofSnapshot_of_size {rows columns : Int} (h : Grid.ofSize rows columns = .ok g)
    (hrows : (g.rows : Int) = rows) (hcolumns : (g.columns : Int) = columns)
    (entries : List (JsonText × Json)) :
    ((∃ e ∈ entries, TooDeep rows columns e) ∧
        Grid.ofSnapshot rows columns entries = .error .tooDeep) ∨
      (∀ e ∈ entries, ¬ TooDeep rows columns e) ∧
        Grid.ofSnapshot rows columns entries = .ok (restore g entries) := by
  have hiff : (entries.any fun e => stops g e.1 e.2) = true ↔
      ∃ e ∈ entries, TooDeep rows columns e := by
    simp only [List.any_eq_true, stops_iff hrows hcolumns]
  rw [Grid.ofSnapshot, h, Except.bind]
  by_cases hstops : (entries.any fun e => stops g e.1 e.2) = true
  · exact .inl ⟨hiff.1 hstops, if_pos hstops⟩
  · refine .inr ⟨fun e he hdeep => hstops (hiff.2 ⟨e, he, hdeep⟩), if_neg hstops⟩

/-! ## All cells -/

/-- The cells that entries describe have a property. -/
def Describe (p : Cell → Prop) (entries : List (JsonText × Json)) : Prop :=
  ∀ e ∈ entries, ∀ fields, e.2.entries? = some fields → p (cellOfEntry fields)

theorem all_restore (hg : g.All p) (h : Describe p entries) : (restore g entries).1.All p := by
  intro a c hc
  rw [get?_restore] at hc
  obtain ⟨before, hbefore, hc⟩ := Option.map_eq_some_iff.1 hc
  cases hdescribed : described? entries a with
  | none =>
    rw [hdescribed, Option.getD_none] at hc
    exact hc ▸ hg a before hbefore
  | some d =>
    obtain ⟨e, he, fields, hfields, rfl⟩ := exists_of_described? hdescribed
    rw [hdescribed, Option.getD_some] at hc
    exact hc ▸ h e he fields hfields

/-- A stored sentinel restores its error state. -/
theorem marked_cellOfEntry (fields : List (JsonText × Json)) : (cellOfEntry fields).Marked := by
  unfold Cell.Marked cellOfEntry
  rfl

theorem marked_restore (h : g.Marked) (entries : List (JsonText × Json)) :
    (restore g entries).1.Marked :=
  all_restore h fun _ _ fields _ => marked_cellOfEntry fields

end Snapshot

end Spreadsheet
