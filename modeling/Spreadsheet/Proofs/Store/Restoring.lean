import Spreadsheet.Proofs.Address.Canonical
import Spreadsheet.Proofs.Json.RoundTrip
import Spreadsheet.Proofs.Recalculation.Results
import Spreadsheet.Proofs.Snapshot.Entries
import Spreadsheet.Proofs.Text.Utf8
import Spreadsheet.Store

/-!
# A stored grid is restored

**Theorem (`load_holding`).** A file that holds JSON is read back: the text is encoded and decoded,
and the JSON in it is read back.

**Theorem (`get?_restore_snapshot`).** The snapshot of a grid, restored into an empty grid of its
size, gives the grid again, if a snapshot keeps all of it (`Storable`). The error states come back
because the cells are marked. An empty formula would not come back, as an entry with an empty text
counts as one without; that no cell has one is kept by all commits, and restoring any object at all
gives none (`noEmptyFormula_restore`).

What a snapshot keeps of a cell does not depend on the others: each entry describes its own cell
(`cellOf?_entryOf`), where its key can be read.
-/

namespace Spreadsheet

open Text

/-! ## The file -/

namespace Store

/-- There is a file, and its bytes are those of a text. -/
def Holds (s : Store) (text : String) : Prop := s.state = .file text.toUTF8.toList

theorem Holds.load_eq {s : Store} {text : String} (h : s.Holds text) :
    s.load = entriesOfText text.toList := by
  unfold load
  rw [h]
  dsimp only
  rw [decodeFile_eq_some_iff.2 rfl]

/-- **What the file holds is loaded.** -/
theorem load_holding {v : Json} {depth : Nat} (hv : v.Readable depth)
    (hdepth : depth ≤ Json.maxDepth) (s : Store) :
    (s.holding v.render.toUTF8.toList).load = .ok v.entries? := by
  have hholds : (s.holding v.render.toUTF8.toList).Holds v.render := rfl
  rw [hholds.load_eq, Json.render, String.toList_ofList, entriesOfText,
    Json.parseChars_chars hv hdepth]

theorem save_eq_ok {s t : Store} {v : Json} (h : s.save v = .ok t) :
    t = s.holding v.render.toUTF8.toList := by
  unfold save at h
  split at h
  · cases h
  · cases h
  · exact (Except.ok.inj h).symm

end Store

/-! ## Texts that are not empty -/

namespace Number

theorem layoutDigits_ne_nil (digits : List Char) (exponent : Int) :
    layoutDigits digits exponent ≠ [] := by
  unfold layoutDigits
  split
  · split <;> simp
  · simp

theorem shortestChars_ne_nil (bits : Nat) : shortestChars bits ≠ [] := by
  have hlayout : ∀ p, layoutNumber p ≠ [] := fun (digits, last) => layoutDigits_ne_nil _ _
  exact hlayout (shortestDigits bits)

theorem shortest_ne_empty (x : Float) : shortest "nan" "inf" x ≠ "" := by
  unfold shortest
  dsimp only
  generalize x.toBits.toNat % Nat.pow 2 63 = bits
  generalize (if Nat.pow 2 63 ≤ x.toBits.toNat then "-" else "") = sign
  split
  · decide
  · split
    · simp
    · split
      · simp
      · simp [shortestChars_ne_nil]

end Number

namespace Json

theorem inspectChars_ne_nil (v : Json) : v.inspectChars ≠ [] := by
  cases v with
  | null => simp [inspectChars]
  | bool b => cases b <;> simp [inspectChars]
  | int n => cases n <;> simp [inspectChars, signedDecimal, decimal, decimalChars_ne_nil]
  | float x => simp [inspectChars, Number.shortest_ne_empty]
  | string s => cases s <;> simp [inspectChars, JsonText.quotedChars, quotedChars]
  | array items => simp [inspectChars]
  | object entries => simp [inspectChars]

/-- What counts as present has a text that is not empty. -/
theorem text_plain_ne_empty {v : Json} (h : v.isTruthy = true) : v.plain.text ≠ "" := by
  have hinspect : v.inspect ≠ "" := by
    simp [inspect, inspectChars_ne_nil]
  cases v with
  | string s =>
    have hcodes : s.codes ≠ [] := by simpa [isTruthy] using h
    cases s <;> simpa [plain, JsonText.text, JsonText.codes] using hcodes
  | _ => exact hinspect

end Json

/-! ## Snapshots -/

/-- An entry keeps all of the cell: the value tells its error state, and its formula is not empty.
-/
structure Cell.Restorable (c : Cell) : Prop where
  marked : c.Marked
  formula : c.formula ≠ some ""

namespace Grid

variable {g k : Grid} {a : Address} {c : Cell}

/-- No formula is empty. -/
def NoEmptyFormula (g : Grid) : Prop := ∀ a, (g.get? a).map Cell.input ≠ some (.inl "")

theorem noEmptyFormula_iff : g.NoEmptyFormula ↔ g.All fun c => c.formula ≠ some "" := by
  constructor
  · intro h a c hc hf
    apply h a
    rw [hc, Option.map_some, Cell.input_of_formula hf]
  · intro h a hempty
    obtain ⟨c, hc, hinput⟩ := Option.map_eq_some_iff.1 hempty
    exact h a c hc (Cell.formula_of_input hinput)

theorem NoEmptyFormula.formula (h : g.NoEmptyFormula) (hc : g.get? a = some c) :
    c.formula ≠ some "" :=
  noEmptyFormula_iff.1 h a c hc

theorem NoEmptyFormula.of_sameInputs (h : g.NoEmptyFormula) (hk : k.SameInputs g) :
    k.NoEmptyFormula := by
  intro a
  rw [hk a]
  exact h a

theorem NoEmptyFormula.set (h : g.NoEmptyFormula) (hc : c.formula ≠ some "") (a : Address) :
    (g.set a c).NoEmptyFormula :=
  noEmptyFormula_iff.2 ((noEmptyFormula_iff.1 h).set hc a)

/-- A snapshot keeps all of the grid: value and formula tell the error state of each cell, no
formula is empty, and the rows have numbers that can be read. -/
structure Storable (g : Grid) : Prop where
  marked : g.Marked
  formulas : g.NoEmptyFormula
  rows_lt : g.rows < Address.rowBound

theorem Storable.row_lt (h : g.Storable) (ha : g.Contains a) :
    a.row + 1 < Address.rowBound := by
  have hrow := ha.1
  have hrows := h.rows_lt
  omega

end Grid

/-! ## Storable grids -/

namespace Grid

variable {g k : Grid} {c : Cell}

theorem Storable.set (h : g.Storable) (hmarked : c.Marked) (hformula : c.formula ≠ some "")
    (a : Address) : (g.set a c).Storable where
  marked := h.marked.set hmarked a
  formulas := h.formulas.set hformula a
  rows_lt := by
    rw [(sameSize_set g a c).1]
    exact h.rows_lt

theorem Storable.of_calculated (h : g.Storable) (hk : g.Calculated k) : k.Storable where
  marked := hk.marked h.marked
  formulas := h.formulas.of_sameInputs hk.sameInputs
  rows_lt := by
    rw [hk.sameSize.1]
    exact h.rows_lt

/-- What is entered has no empty formula. -/
theorem formula_enter (g : Grid) (a : Address) (text : String) :
    (g.enter a text).1.formula ≠ some "" := by
  intro hf
  have hinput := input_enter g a text
  rw [Cell.input_of_formula hf, inputOfText] at hinput
  split at hinput
  · rename_i hformula
    rw [← Sum.inl.inj hinput] at hformula
    cases hformula
  · split at hinput
    · cases hinput
    · split at hinput <;> cases hinput

/-- **Commits keep a grid storable.** -/
theorem Storable.commit (h : g.Storable) (limit : Int) (a : Address) (text : String) :
    (g.commit limit a text).1.Storable :=
  (h.set (marked_enter g a (strip text)) (formula_enter g a (strip text)) a).of_calculated
    (calculated_commit g limit a text)

end Grid

/-! ## The stored form of a snapshot -/

namespace Snapshot

variable {g k : Grid} {a b : Address} {c : Cell}

theorem readable_contentJson (value : String) (formula : Option String) :
    Json.Readable 1 (contentJson value formula) := by
  refine Json.readable_object ?_ (by simp)
  intro e he
  simp only [List.mem_cons, List.not_mem_nil, or_false] at he
  rcases he with rfl | rfl
  · exact ⟨⟨_, rfl⟩, Json.readable_string 0 value⟩
  · refine ⟨⟨_, rfl⟩, ?_⟩
    cases formula with
    | none => exact Json.readable_null 0
    | some f => exact Json.readable_string 0 f

/-- The stored form of a snapshot is read back, because addresses have names of their own. -/
theorem readable_toJson {s : Snapshot} (hnodup : (s.map Prod.fst).Nodup) :
    Json.Readable 2 s.toJson := by
  refine Json.readable_object ?_ ?_
  · intro e he
    obtain ⟨x, -, rfl⟩ := List.mem_map.1 he
    exact ⟨⟨_, rfl⟩, readable_contentJson x.2.1 x.2.2⟩
  · rw [List.map_map, List.Nodup, List.pairwise_map]
    refine (List.pairwise_map.1 hnodup).imp ?_
    intro x y hxy hname
    exact hxy (Address.eq_of_name_eq (JsonText.whole.inj hname))

/-! ## Restoring -/

/-- The entry of a cell. -/
def entryOf (e : Address × Cell) : JsonText × Json :=
  (.whole e.1.name, contentJson e.2.value e.2.formula)

theorem toJson_snapshot (g : Grid) : g.snapshot.toJson = .object (g.entries.map entryOf) := by
  simp only [toJson, Grid.snapshot, List.map_map]
  rfl

/-- The canonical name of an address is the key of no other one, and if it cannot be read, of none.
-/
theorem addressOfKey?_name :
    addressOfKey? (.whole a.name) = some b ↔ a = b ∧ b.row + 1 < Address.rowBound := by
  rw [addressOfKey?]
  constructor
  · intro h
    cases hparse : Address.parse a.name with
    | error e =>
      rw [hparse] at h
      cases h
    | ok c =>
      rw [hparse] at h
      obtain rfl := Option.some.inj h
      exact ⟨Address.eq_of_parse_name hparse, Address.row_lt_of_parse hparse⟩
  · rintro ⟨rfl, hrow⟩
    rw [Address.parse_name hrow]
    rfl

/-- Nothing is described for a row whose number is too long. -/
theorem described?_of_row_le {entries : List (JsonText × Json)}
    (h : ¬ a.row + 1 < Address.rowBound) : described? entries a = none := by
  refine described?_eq_none_iff.2 fun e _ => if_neg fun hkey => h ?_
  cases hkeyText : e.1 with
  | broken codes =>
    rw [hkeyText] at hkey
    cases hkey
  | whole text =>
    rw [hkeyText, addressOfKey?] at hkey
    cases hparse : Address.parse text with
    | error e =>
      rw [hparse] at hkey
      cases hkey
    | ok b =>
      rw [hparse] at hkey
      obtain rfl := Option.some.inj hkey
      exact Address.row_lt_of_parse hparse

theorem isTruthy_whole {text : String} (h : text ≠ "") :
    (Json.string (.whole text)).isTruthy = true := by
  simpa [Json.isTruthy, JsonText.codes] using h

/-- The entry of a cell that can be restored describes the cell. -/
theorem cellOfEntry_content {c : Cell} (hmarked : c.Marked) (hformula : c.formula ≠ some "") :
    cellOfEntry [("value", .string c.value),
      ("formula", c.formula.elim .null fun f => .string f)] = c := by
  obtain ⟨value, formula, state⟩ := c
  have htext : (if (Json.string (.whole value)).isTruthy then
      (Json.string (.whole value)).plain.text else "") = value := by
    by_cases hvalue : value = ""
    · rw [hvalue]
      rfl
    · rw [if_pos (isTruthy_whole hvalue)]
      rfl
  have hstate : state = ErrorState.ofSentinel value := hmarked
  have hvalue : Json.lookup "value" [("value", Json.string value),
      ("formula", formula.elim .null fun f => .string f)] = .string value := rfl
  have hlookup : Json.lookup "formula" [("value", Json.string value),
      ("formula", formula.elim .null fun f => .string f)] =
      formula.elim .null fun f => .string f := rfl
  unfold cellOfEntry
  dsimp only
  rw [hvalue, hlookup, htext, ← hstate]
  cases formula with
  | none => rfl
  | some f =>
    have hf : f ≠ "" := fun hf => hformula (congrArg some hf)
    simp only [Option.elim_some, isTruthy_whole hf, if_true]
    rfl

/-- An entry of a grid describes its own cell, if its key can be read. -/
theorem cellOf?_entryOf (h : c.Restorable) :
    cellOf? b (entryOf (a, c)) = if a = b ∧ b.row + 1 < Address.rowBound then some c else none := by
  have hcell : (contentJson c.value c.formula).entries?.map cellOfEntry = some c :=
    congrArg some (cellOfEntry_content h.marked h.formula)
  simp only [cellOf?, entryOf, addressOfKey?_name, hcell]

/-- The entries of a grid describe its cells. -/
theorem described?_entries (h : g.All Cell.Restorable) (hb : b.row + 1 < Address.rowBound) :
    described? (g.entries.map entryOf) b = g.get? b := by
  cases hdescribed : described? (g.entries.map entryOf) b with
  | some d =>
    obtain ⟨e, he, hcell⟩ := exists_cellOf? hdescribed
    obtain ⟨⟨a, c⟩, hmem, rfl⟩ := List.mem_map.1 he
    have hc : g.get? a = some c := Grid.mem_entries.1 hmem
    rw [cellOf?_entryOf (h a c hc)] at hcell
    split at hcell
    · rename_i hab
      rw [← hab.1, hc, Option.some.inj hcell]
    · cases hcell
  | none =>
    cases hc : g.get? b with
    | none => rfl
    | some c =>
      have hnone := described?_eq_none_iff.1 hdescribed _
        (List.mem_map_of_mem (Grid.mem_entries.2 hc))
      rw [cellOf?_entryOf (h b c hc), if_pos ⟨rfl, hb⟩] at hnone
      cases hnone

/-- **Cells that can be restored are**, in all rows whose numbers can be read. -/
theorem get?_restore_entries (hcells : g.All Cell.Restorable) (hsize : k.SameSize g) :
    (restore k (g.entries.map entryOf)).1.get? b =
      if b.row + 1 < Address.rowBound then g.get? b else k.get? b := by
  rw [get?_restore]
  by_cases hb : b.row + 1 < Address.rowBound
  · rw [if_pos hb, described?_entries hcells hb]
    by_cases hcontains : g.Contains b
    · obtain ⟨c, hc⟩ := Grid.get?_of_contains hcontains
      obtain ⟨d, hd⟩ := Grid.get?_of_contains ((Grid.contains_congr hsize b).2 hcontains)
      rw [hc, hd]
      rfl
    · rw [Grid.get?_eq_none hcontains,
        Grid.get?_eq_none (mt (Grid.contains_congr hsize b).1 hcontains)]
      rfl
  · rw [if_neg hb, described?_of_row_le hb]
    exact Option.map_id'

theorem noEmptyFormula_cellOfEntry (fields : List (JsonText × Json)) :
    (cellOfEntry fields).formula ≠ some "" := by
  unfold cellOfEntry
  dsimp only
  split
  · rename_i htruthy
    exact fun h => Json.text_plain_ne_empty htruthy (Option.some.inj h)
  · simp

/-- No object restores an empty formula. -/
theorem noEmptyFormula_restore {g : Grid} (hg : g.NoEmptyFormula)
    (entries : List (JsonText × Json)) : (restore g entries).1.NoEmptyFormula :=
  Grid.noEmptyFormula_iff.2 (all_restore (Grid.noEmptyFormula_iff.1 hg)
    fun _ _ fields _ => noEmptyFormula_cellOfEntry fields)

end Snapshot

/-- The snapshot of a grid that was saved is loaded. -/
theorem Store.load_save {s t : Store} {g : Grid} (h : s.save g.snapshot.toJson = .ok t) :
    t.load = .ok (some (g.entries.map Snapshot.entryOf)) := by
  rw [save_eq_ok h, load_holding (Snapshot.readable_toJson g.nodup_snapshot) (by decide),
    Snapshot.toJson_snapshot]
  rfl

namespace Grid

variable {g k : Grid} {a : Address} {c : Cell}

/-- **A stored grid is restored.** -/
theorem Storable.get?_restore_snapshot (h : g.Storable) (hsize : k.SameSize g) (b : Address) :
    (Snapshot.restore k (g.entries.map Snapshot.entryOf)).1.get? b = g.get? b := by
  have hcells : g.All Cell.Restorable := fun a c hc => ⟨h.marked a c hc, h.formulas.formula hc⟩
  rw [Snapshot.get?_restore_entries hcells hsize]
  by_cases hb : g.Contains b
  · rw [if_pos (h.row_lt hb)]
  · rw [get?_eq_none hb, get?_eq_none (mt (contains_congr hsize b).1 hb), ite_self]

end Grid

end Spreadsheet
