import Spreadsheet.Proofs.Session.Recovery
import Spreadsheet.Proofs.Sheet.Answers
import Spreadsheet.Proofs.Store.Loading

/-!
# Loading a session

**Theorem (`load_outcome`).** A session is loaded from every file that can be read, and its grid has
the size that was set, whatever the file holds. A fault of the file is one of loading the session too,
and then the session is as it was. This happens only if the file is no text, or one with very many
digits in a row or very many brackets.

Restoring never fails, because no entry that is read is nested too deep (`ofSnapshot_of_load`). The
entries of the file decide what the cells hold (`Snapshot.get?_restore`), and the sweep that follows
stores results only; so after loading every formula shows its result (`LoadedFrom`).
-/

namespace Spreadsheet

/-- The grid of empty cells has the size that was set. -/
theorem Settings.ofSize_emptyGrid (settings : Settings) :
    Grid.ofSize settings.rows settings.columns = .ok settings.emptyGrid := by
  have hrows := settings.rows_pos
  have hcolumns := settings.columns_pos
  have hletters := settings.columns_le
  rw [Grid.ofSize, dif_neg (by omega), dif_pos (by omega)]
  rfl

namespace Session

variable {s : Session} {stored : Option (List (JsonText × Json))}

/-- A session was loaded from the entries of a file, or without any. Each cell holds what the last
entry for it describes; entries that are no objects, or not for a cell of the grid, do not count. -/
structure LoadedFrom (s : Session) (stored : Option (List (JsonText × Json)))
    (done : Outcome (Except LoadError Grid)) : Prop where
  result : done.result = .ok done.session.sheet.grid
  loaded : done.session.loaded = true
  unfocused : done.session.editing = none
  rows : done.session.sheet.grid.rows = s.settings.rows
  columns : done.session.sheet.grid.columns = s.settings.columns
  /-- No entry is nested too deep to be restored. -/
  restored : ∀ entries, stored = some entries → ∃ warnings,
    Grid.ofSnapshot s.settings.rows s.settings.columns entries =
      .ok ((s.storedGrid stored).1, warnings)
  inputs : ∀ a c, done.session.sheet.grid.get? a = some c →
    c.input = ((Snapshot.described? (stored.getD []) a).getD .empty).input
  marked : done.session.sheet.grid.Marked
  current : done.session.sheet.grid.Current
  /-- The sweep lacks nothing on its way. -/
  provided : ∀ e ∈ (Sheet.ofGrid (s.storedGrid stored).1 none).evaluations .reconcile,
    e.lack? = none

theorem load_of_error {e : LoadError} (h : s.store.load = .error e) : s.load = ⟨s, [], .error e⟩ := by
  unfold load
  rw [h]

/-- Without a file nothing is described, and the cells are empty. -/
theorem get?_storedGrid (s : Session) (stored : Option (List (JsonText × Json))) (a : Address) :
    (s.storedGrid stored).1.get? a =
      (s.settings.emptyGrid.get? a).map fun c =>
        (Snapshot.described? (stored.getD []) a).getD c := by
  cases stored with
  | none => exact Snapshot.get?_restore s.settings.emptyGrid [] a
  | some entries => exact Snapshot.get?_restore s.settings.emptyGrid entries a

/-- The entries of a file are restored into a grid of the size that was set. -/
theorem ofSnapshot_of_load {entries : List (JsonText × Json)} (h : s.store.load = .ok (some entries)) :
    Grid.ofSnapshot s.settings.rows s.settings.columns entries =
      .ok (Snapshot.restore s.settings.emptyGrid entries) := by
  rcases Snapshot.ofSnapshot_of_size s.settings.ofSize_emptyGrid rfl rfl entries with
    ⟨⟨e, he, hdeep⟩, -⟩ | ⟨-, heq⟩
  · exact absurd hdeep (Store.not_tooDeep_of_load h _ _ e he)
  · exact heq

/-- **A session is loaded** from whatever is read from the file. -/
theorem loadedFrom_load (h : s.store.load = .ok stored) : s.LoadedFrom stored s.load := by
  have hresult := result_load h
  rcases load_cases s with ⟨-, e, herror⟩ | ⟨found, hfound, -, hsheet, hediting, hloaded, -⟩
  · rw [hresult] at herror
    cases herror
  · obtain rfl := Except.ok.inj (h.symm.trans hfound)
    have hcalculated := (Sheet.ofGrid (s.storedGrid stored).1 none).calculated_reconcile
    have hswept := (Sheet.sound_ofGrid (s.marked_storedGrid stored) none).reconcile
    rw [← hsheet] at hcalculated hswept
    obtain ⟨hrows, hcolumns⟩ := hcalculated.sameSize.trans (s.sameSize_storedGrid stored)
    have hrestored : ∀ entries, stored = some entries → ∃ warnings,
        Grid.ofSnapshot s.settings.rows s.settings.columns entries =
          .ok ((s.storedGrid stored).1, warnings) := by
      rintro entries rfl
      exact ⟨_, ofSnapshot_of_load h⟩
    refine ⟨hresult, hloaded, hediting, hrows, hcolumns, hrestored, fun a c hc => ?_,
      hswept.1.marked, hswept.2, fun e _ => e.lack?_eq_none⟩
    obtain ⟨before, hbefore, hinput⟩ := (hcalculated.sameInputs.agreeAt (.cell a)).find?_some hc
    have hget : (s.storedGrid stored).1.get? a = some before := hbefore
    rw [get?_storedGrid] at hget
    obtain ⟨blank, hblank, rfl⟩ := Option.map_eq_some_iff.1 hget
    rw [← hinput, Grid.get?_empty hblank]

/-- **A session is loaded, or the file has a fault.** -/
theorem load_outcome (s : Session) :
    (∃ stored, s.store.Loads (.ok stored) ∧ s.LoadedFrom stored s.load) ∨
      (∃ e, s.store.Loads (.error e) ∧ s.load = ⟨s, [], .error e⟩) ∧ ¬ s.store.Moderate := by
  cases hload : s.store.load with
  | ok stored => exact .inl ⟨stored, Store.loads_iff.2 hload, loadedFrom_load hload⟩
  | error e =>
    refine .inr ⟨⟨e, Store.loads_iff.2 hload, load_of_error hload⟩, fun hmoderate => ?_⟩
    obtain ⟨stored, hstored⟩ := Store.exists_load hmoderate
    rw [hload] at hstored
    cases hstored

/-- A file of one byte that is no text. -/
def strayByte : Store := (Store.ofPath "grid.json").holding [0xff]

/-- Not every file can be loaded. -/
theorem load_not_total : ¬ ∀ s : Session, ∃ g, s.load.result = .ok g := by
  intro h
  obtain ⟨g, hresult⟩ := h (ofStore oneCell strayByte)
  have herror : strayByte.load = .error .undecodable := rfl
  rw [load_of_error (s := ofStore oneCell strayByte) herror] at hresult
  cases hresult

end Session

end Spreadsheet
