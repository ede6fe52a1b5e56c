import Spreadsheet.Proofs.Session.Recovery

/-!
# What a session keeps of its cells

All that a session does to its cells is to enter texts, to store results, to open a cell, and to load
what it wrote itself. A property of cells that is kept by each of these (`Cell.Kept`) holds of all
cells after every run, if it holds of what the file describes at first (`Session.holds_run`).

The invariant (`Holds`) says this of the sheet and of the entries of the file, because the sheet is
loaded from there.
-/

namespace Spreadsheet

open Text

/-- A property of cells that is kept by whatever is done to cells. What has it is told by a snapshot:
value and formula tell the error state, and no formula is empty. -/
structure Cell.Kept (p : Cell → Prop) : Prop where
  empty : p .empty
  entered : ∀ (g : Grid) (a : Address) (text : String), p (g.enter a (strip text)).1
  ofResult : ∀ {c : Cell} {formula : String} (result : Except FormulaError Float), p c →
    c.formula = some formula → p (.ofResult formula result)
  opened : ∀ {c : Cell}, p c → p (Session.opened c).1
  marked : ∀ {c : Cell}, p c → c.Marked
  formula_ne : ∀ {c : Cell}, p c → c.formula ≠ some ""

variable {p : Cell → Prop}

/-! ## Grids -/

namespace Grid

variable {g k : Grid} {a : Address} {c : Cell}

theorem All.of_calculated (hp : Cell.Kept p) (h : g.All p) (hk : g.Calculated k) : k.All p := by
  induction hk with
  | refl => exact h
  | store result _ hc hf ih => exact ih.set (hp.ofResult result (ih _ _ hc) hf) _

theorem All.commit (hp : Cell.Kept p) (h : g.All p) (limit : Int) (a : Address) (text : String) :
    (g.commit limit a text).1.All p :=
  (h.set (hp.entered g a text) a).of_calculated hp (calculated_commit g limit a text)

end Grid

/-! ## Files -/

/-- The entries of a grid describe its cells. -/
theorem Grid.All.describe {g : Grid} (hp : Cell.Kept p) (h : g.All p) :
    Snapshot.Describe p (g.entries.map Snapshot.entryOf) := by
  intro e he fields hfields
  obtain ⟨⟨a, c⟩, hmem, rfl⟩ := List.mem_map.1 he
  have hc : p c := h a c (mem_entries.1 hmem)
  obtain rfl := Option.some.inj hfields
  rw [Snapshot.cellOfEntry_content (hp.marked hc) (hp.formula_ne hc)]
  exact hc

/-- The cells that the file describes have a property. There need not be a file. -/
def Store.Describes (p : Cell → Prop) (s : Store) : Prop :=
  ∀ entries, s.load = .ok (some entries) → Snapshot.Describe p entries

theorem Store.load_reach (s : Store) : s.reach.load = s.load := by
  obtain ⟨path, reachable, state⟩ := s
  cases state with
  | missing =>
    unfold reach
    dsimp only
    split <;> rfl
  | _ => rfl

theorem Grid.All.describes {g : Grid} (hp : Cell.Kept p) (h : g.All p) {s t : Store}
    (hsave : s.save g.snapshot.toJson = .ok t) : t.Describes p := by
  intro entries hload
  rw [Store.load_save hsave] at hload
  obtain rfl := Option.some.inj (Except.ok.inj hload)
  exact h.describe hp

/-! ## Sessions -/

namespace Session

variable {s t : Session} {clock : Option Nat} {a : Address} {text : String}

/-- The cells of the sheet have a property, and those that the file describes too. -/
structure Holds (p : Cell → Prop) (s : Session) : Prop where
  grid : s.sheet.grid.All p
  file : s.store.Describes p

namespace Holds

theorem of_eq (h : s.Holds p) (hsheet : t.sheet = s.sheet) (hstore : t.store = s.store) :
    t.Holds p :=
  ⟨hsheet ▸ h.grid, hstore ▸ h.file⟩

/-- A write that fails leaves the entries of the file as they were. -/
theorem persist (hp : Cell.Kept p) (h : s.Holds p) : s.persist.1.Holds p := by
  unfold Session.persist
  cases hsave : s.store.save s.sheet.grid.snapshot.toJson with
  | ok store => exact ⟨h.grid, h.grid.describes hp hsave⟩
  | error e =>
    refine ⟨h.grid, fun entries hload => h.file entries ?_⟩
    rwa [← Store.load_reach]

theorem sweep (hp : Cell.Kept p) (h : s.Holds p) : s.sweep.1.Holds p :=
  ⟨h.grid.of_calculated hp (calculated_sweep s), store_sweep s ▸ h.file⟩

theorem trigger (h : s.Holds p) : (s.trigger clock).session.Holds p :=
  h.of_eq (sheet_trigger clock s) (store_trigger clock s)

theorem commitAt (hp : Cell.Kept p) (h : s.Holds p) :
    (s.commitAt clock a text).session.Holds p := by
  have hentered : (s.entered a text).Holds p := by
    refine ⟨?_, store_entered s a text ▸ h.file⟩
    rw [sheet_entered, Sheet.grid_commit]
    exact h.grid.commit hp s.sheet.depthLimit a text
  rw [session_commitAt]
  split
  · exact ((hentered.sweep hp).persist hp).trigger
  · exact (hentered.sweep hp).persist hp

theorem commit (hp : Cell.Kept p) (h : s.Holds p) (address text : Option String) :
    (s.commit clock address text).session.Holds p := by
  rcases commit_cases clock s address text with ⟨e, -, heq⟩ | ⟨a, value, -, heq⟩
  · rw [heq]
    exact h
  · rw [heq]
    exact h.commitAt hp

theorem left (hp : Cell.Kept p) (h : s.Holds p) : (s.left clock a).Holds p := by
  rcases left_cases clock s a with heq | ⟨e, -, heq⟩
  · rw [heq]
    exact h
  · rw [heq]
    exact h.commitAt hp

theorem cellAt (hp : Cell.Kept p) (h : s.Holds p) (a : Address) : p (s.cellAt a) :=
  holds_cellAt hp.empty (h.grid a)

theorem focusAt (hp : Cell.Kept p) (h : s.Holds p) : (s.focusAt clock a).session.Holds p := by
  have hleft : (s.left clock a).Holds p := h.left hp
  unfold Session.focusAt
  unfold Session.left at hleft
  generalize s.leaveOther clock a = before at hleft ⊢
  obtain ⟨t, left⟩ := before
  dsimp only at hleft ⊢
  have hopened : Holds p { t with
      sheet := { t.sheet with grid := t.sheet.grid.set a (opened (t.cellAt a)).1 } } :=
    ⟨hleft.grid.set (hp.opened (hleft.cellAt hp a)) a, hleft.file⟩
  cases (t.cellAt a).isError with
  | true => exact (hopened.persist hp).of_eq rfl rfl
  | false => exact hleft.of_eq rfl rfl

theorem focus (hp : Cell.Kept p) (h : s.Holds p) (address : String) :
    (s.focus clock address).session.Holds p := by
  rcases focus_cases clock s address with heq | ⟨a, -, heq⟩
  · rw [heq]
    exact h
  · rw [heq]
    exact h.focusAt hp

theorem edit (hp : Cell.Kept p) (h : s.Holds p) (address text : String) :
    (s.edit clock address text).session.Holds p := by
  rcases edit_cases clock s address text with heq | ⟨a, -, t, e, ht, heq⟩
  · rw [heq]
    exact h
  · rw [heq]
    rcases ht with ⟨-, rfl⟩ | ⟨-, rfl⟩
    · exact h.of_eq rfl rfl
    · exact (h.focusAt hp).of_eq rfl rfl

theorem load (hp : Cell.Kept p) (h : s.Holds p) : s.load.session.Holds p := by
  unfold Session.load
  cases hload : s.store.load with
  | error e => exact h
  | ok stored =>
    -- The sweep that follows only stores results, so the grid that is restored decides.
    have hstored : (s.storedGrid stored).1.All p := by
      cases stored with
      | none => exact s.settings.all_emptyGrid hp.empty
      | some entries =>
        exact Snapshot.all_restore (s.settings.all_emptyGrid hp.empty) (h.file entries hload)
    have hgrid := hstored.of_calculated hp
      (Sheet.ofGrid (s.storedGrid stored).1 none).calculated_reconcile
    dsimp only
    generalize (Sheet.ofGrid (s.storedGrid stored).1 none).reconcile = swept at hgrid ⊢
    obtain ⟨sheet, result⟩ := swept
    have hs : Holds p { s with sheet := sheet, loaded := true, editing := none } :=
      ⟨hgrid, h.file⟩
    dsimp only
    cases result.changed with
    | true => exact hs.persist hp
    | false => exact hs

end Holds

/-! ## Runs -/

/-- Whether a move is the session's own. -/
def Move.isOwn : Move → Bool
  | .rewrite _ => false
  | _ => true

/-- **The step lemma.** -/
theorem Holds.move (hp : Cell.Kept p) (h : s.Holds p) {v : Move} (hv : v.isOwn = true) :
    (s.move v).Holds p := by
  cases v with
  | fire now => exact h.of_eq rfl rfl
  | resume now number reply => exact h.of_eq rfl rfl
  | rewrite store => cases hv
  | call clock c =>
    cases c with
    | load => exact h.load hp
    | focus address => exact h.focus hp address
    | edit address text => exact h.edit hp address text
    | commit address text => exact h.commit hp address text
    | clear address => exact h.commit hp (some address) (some "")
    | reconcile =>
      show s.reconcile.session.Holds p
      rcases reconcile_cases s with heq | heq
      · rw [heq]
        exact h
      · rw [heq]
        exact h.sweep hp
    | save =>
      show (s.save clock).session.Holds p
      rcases save_cases clock s with heq | heq
      · rw [heq]
        exact h
      · rw [heq]
        exact h.trigger
    | dispose => exact h.of_eq rfl rfl

/-- **The run lemma.** What is in the file at first decides. -/
theorem holds_run (hp : Cell.Kept p) (settings : Settings) {store : Store}
    (hstore : store.Describes p) {moves : List Move} (hmoves : ∀ v ∈ moves, v.isOwn = true) :
    ((ofStore settings store).run moves).Holds p := by
  have hstart : (ofStore settings store).Holds p := ⟨settings.all_emptyGrid hp.empty, hstore⟩
  generalize ofStore settings store = s at hstart
  induction moves generalizing s with
  | nil => exact hstart
  | cons v moves ih =>
    obtain ⟨hv, hrest⟩ := List.forall_mem_cons.1 hmoves
    exact ih hrest (s.move v) (hstart.move hp hv)

end Session

end Spreadsheet
