import Spreadsheet.Proofs.Sheet.Calls

/-!
# What is left of the history of a sheet

**Theorem (`history_does_not_matter`).** After a sweep, a sheet that began empty shows nothing of what
happened to it but the last text that was committed to each cell.

Formulas and literals are kept as they were committed: a text determines what evaluation reads from
its cell (`Grid.input_enter`), and nothing else that a commit or a sweep does touches what evaluation
reads. So the last texts determine the formulas and literals (`inputs_run`), and these determine all
values and error states once a sweep has made the sheet current.
-/

namespace Spreadsheet

open Text

/-! ## The last texts -/

namespace Sheet

/-- The stripped text that a call commits to a cell, if it does. -/
def Call.textFor (a : Address) : Call → Option String
  | .commit address text =>
    match Address.parse address with
    | .error _ => none
    | .ok b => if b = a then some (strip text) else none
  | .reconcile => none

theorem Call.textFor_of_ok {address : String} {b : Address} (h : Address.parse address = .ok b)
    (a : Address) (text : String) :
    textFor a (.commit address text) = if b = a then some (strip text) else none := by
  simp only [textFor, h]

/-- The stripped text that was committed to a cell last, and no text if there was none. -/
def lastText (calls : List Call) (a : Address) : String :=
  ((calls.filterMap (Call.textFor a)).getLast?).getD ""

variable {s : Sheet} {c : Call} {calls calls' : List Call} {a : Address} {address text : String}

theorem lastText_snoc (calls : List Call) (c : Call) (a : Address) :
    lastText (calls ++ [c]) a = (c.textFor a).getD (lastText calls a) := by
  unfold lastText
  rw [List.filterMap_append]
  cases htext : c.textFor a with
  | none => simp [htext]
  | some text => simp [htext]

/-- A sheet of a given size that is sound, with the formulas and literals of the last texts. -/
structure HoldsTexts (start : Grid) (calls : List Call) (s : Sheet) : Prop where
  sound : s.Sound
  size : s.grid.SameSize start
  input : ∀ a, s.grid.Contains a →
    (s.grid.get? a).map Cell.input = some (Grid.inputOfText (lastText calls a))

theorem sameSize_commit (s : Sheet) (a : Address) (text : String) :
    (s.commit a text).1.grid.SameSize s.grid := by
  rw [grid_commit]
  exact (Grid.calculated_commit s.grid s.depthLimit a text).sameSize.trans
    (Grid.sameSize_set s.grid a _)

theorem calculated_reconcile (s : Sheet) : s.grid.Calculated s.reconcile.1.grid := by
  cases hchanged : s.hasChanged with
  | true =>
    rw [reconcile_of_hasChanged hchanged]
    exact Grid.calculated_recalculate (Grid.lists_formulaCells s.grid)
  | false =>
    rw [reconcile_of_not_hasChanged hchanged]
    exact .refl

variable {start : Grid}

/-- A text for a cell of the sheet replaces what is read from this cell. -/
theorem HoldsTexts.commit (h : s.HoldsTexts start calls) (ha : s.grid.Contains a)
    (hparse : Address.parse address = .ok a) (text : String) :
    (s.commit a text).1.HoldsTexts start (calls ++ [.commit address text]) where
  sound := h.sound.commit a text
  size := (sameSize_commit s a text).trans h.size
  input := by
    intro b hb
    rw [grid_commit, Grid.input_commit ha, lastText_snoc, Call.textFor_of_ok hparse]
    by_cases hba : b = a
    · rw [if_pos hba, if_pos hba.symm, Option.getD_some]
    · rw [if_neg hba, if_neg (Ne.symm hba), Option.getD_none]
      exact h.input b ((Grid.contains_congr (sameSize_commit s a text) b).1 hb)

/-- A text for no cell of the sheet changes nothing, and it is the last one of no cell. -/
theorem HoldsTexts.missing (h : s.HoldsTexts start calls)
    (hlocate : ∀ a, s.grid.locate address ≠ .ok a) (text : String) :
    s.HoldsTexts start (calls ++ [.commit address text]) where
  sound := h.sound
  size := h.size
  input := by
    intro b hb
    have hnone : Call.textFor b (.commit address text) = none := by
      cases hparse : Address.parse address with
      | error e => simp only [Call.textFor, hparse]
      | ok a =>
        rw [Call.textFor_of_ok hparse]
        refine if_neg fun hab => hlocate a ?_
        simp only [Grid.locate, hparse, if_pos (hab ▸ hb)]
    rw [lastText_snoc, hnone, Option.getD_none]
    exact h.input b hb

/-- A sweep reads the formulas and literals only. -/
theorem HoldsTexts.reconcile (h : s.HoldsTexts start calls) :
    s.reconcile.1.HoldsTexts start (calls ++ [.reconcile]) where
  sound := h.sound.reconcile.1
  size := (calculated_reconcile s).sameSize.trans h.size
  input := by
    intro b hb
    rw [(calculated_reconcile s).sameInputs b, lastText_snoc, Call.textFor, Option.getD_none]
    exact h.input b ((Grid.contains_congr (calculated_reconcile s).sameSize b).1 hb)

theorem HoldsTexts.call (h : s.HoldsTexts start calls) (c : Call) :
    (s.call c).HoldsTexts start (calls ++ [c]) := by
  cases c with
  | commit address text =>
    cases hlocate : s.grid.locate address with
    | error missing =>
      rw [call_of_error hlocate]
      exact h.missing (by simp [hlocate]) text
    | ok a =>
      rw [call_of_ok hlocate]
      obtain ⟨hparse, ha⟩ := contains_of_locate hlocate
      exact h.commit ha hparse text
  | reconcile => exact h.reconcile

/-- **The last texts determine the formulas and literals** of a sheet that began empty. -/
theorem inputs_run {rows columns : Int} (hstart : Grid.ofSize rows columns = .ok start)
    (limit : Option Int) (calls : List Call) :
    ((Sheet.ofGrid start limit).run calls).HoldsTexts start calls := by
  refine run_induction (p := HoldsTexts start) (fun _ _ c h => h.call c) calls [] ?_
  refine ⟨sound_ofGrid (fun a c hc => ?_) limit, .refl start, fun a ha => ?_⟩
  · rw [Grid.get?_ofSize hstart hc]
    exact Cell.marked_empty
  · obtain ⟨c, hc⟩ := Grid.get?_of_contains ha
    have hget : (Sheet.ofGrid start limit).grid.get? a = some c := hc
    rw [hget, Grid.get?_ofSize hstart hc]
    rfl

/-- **History does not matter.** Whatever texts were committed to an empty sheet, valid or not, in
whatever order and with whatever sweeps in between: once it is swept, each of its cells is determined
by the last texts of all cells. -/
theorem history_does_not_matter {rows columns : Int} (hstart : Grid.ofSize rows columns = .ok start)
    (limit limit' : Option Int)
    (hlast : ∀ a, start.Contains a → lastText calls a = lastText calls' a) (a : Address) :
    ((Sheet.ofGrid start limit).run calls).reconcile.1.grid.get? a =
      ((Sheet.ofGrid start limit').run calls').reconcile.1.grid.get? a := by
  have h := (inputs_run hstart limit calls).reconcile
  have h' := (inputs_run hstart limit' calls').reconcile
  have hcurrent := (inputs_run hstart limit calls).sound.reconcile.2
  have hcurrent' := (inputs_run hstart limit' calls').sound.reconcile.2
  refine hcurrent.get?_eq hcurrent' h.sound.marked h'.sound.marked (fun b => ?_) a
  by_cases hb : start.Contains b
  · rw [h.input b ((Grid.contains_congr h.size b).2 hb),
      h'.input b ((Grid.contains_congr h'.size b).2 hb), lastText_snoc, lastText_snoc,
      Call.textFor, Option.getD_none, Option.getD_none, hlast b hb]
  · have hnone : ∀ {k : Grid}, k.SameSize start → k.get? b = none :=
      fun hk => Grid.get?_eq_none fun hc => hb ((Grid.contains_congr hk b).1 hc)
    rw [hnone h.size, hnone h'.size]

/-- An error that is overcome leaves no trace. -/
theorem overcome_error :
    let start := Grid.empty 1 2 (by decide) (by decide) (by decide)
    let calls := [.commit "A1" "abc", .commit "B1" "=A1+2", .reconcile, .commit "a1" " 5 "]
    let calls' := [.commit "B1" "=A1+2", .commit "A1" "5"]
    Grid.ofSize 1 2 = .ok start ∧
      (∀ a, start.Contains a → lastText calls a = lastText calls' a) ∧
      ∀ a, ((Sheet.ofGrid start none).run calls).reconcile.1.grid.get? a =
        ((Sheet.ofGrid start (some 1)).run calls').reconcile.1.grid.get? a := by
  intro start calls calls'
  have hlast : ∀ a ∈ start.addresses, lastText calls a = lastText calls' a := by decide +kernel
  have hsame : ∀ a, start.Contains a → lastText calls a = lastText calls' a :=
    fun a ha => hlast a (Grid.mem_addresses.2 ha)
  have hstart : Grid.ofSize 1 2 = .ok start := rfl
  exact ⟨hstart, hsame, history_does_not_matter hstart none (some 1) hsame⟩

end Sheet

end Spreadsheet
