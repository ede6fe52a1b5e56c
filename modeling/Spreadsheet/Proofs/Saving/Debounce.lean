import Mathlib.Data.List.TakeWhile
import Spreadsheet.Proofs.Saving.Flushes

/-!
# The last trigger is kept

The moment of a trigger is the earlier of the end of its window and the first flush after it. What
happens at the same time counts in the order in which the loop has it happen.

**Theorem (`last_trigger_kept`).** The source of a trigger is read once, at its moment, if nothing
opposed the trigger before: no other trigger, and neither the window nor the manager was closed.
Otherwise it is never read. A window is open exactly while a trigger waits for its moment, each text
that is read is the text of one save, and a flush returns only after all saves have ended that windows
had started.

The proofs follow what happens from a trigger on: while its window is open the trigger waits
(`callsOf_waiting`), and no later window carries its number (`callsOf_gone`).
-/

namespace Spreadsheet

variable {α : Type}

open Manager

namespace Loop

/-! ## Triggers -/

/-- What happens after a trigger before its moment, which comes when its window is due, or with the
first flush. -/
def beforeMoment (due : Nat) (later : List (Happened α)) : List (Happened α) :=
  later.takeWhile fun e => e.what.read?.isNone && e.time ≤ due

/-- The moment of a trigger: the earlier of the end of its window and the first flush after it. -/
def moment (due : Nat) (later : List (Happened α)) : Nat :=
  match later.find? fun e => e.what.isFlush with
  | none => due
  | some e => min e.time due

/-- Nothing opposes a trigger before its moment. -/
def Unopposed (due : Nat) (later : List (Happened α)) : Prop :=
  ∀ e ∈ beforeMoment due later, e.what.opposes = false

/-- The moment of a trigger has come. -/
def HasCome (due : Nat) (later : List (Happened α)) : Prop :=
  (beforeMoment due later).length < later.length

/-- Where and when the source of a trigger was read. -/
def callsOf (l : Loop α) (trigger : Nat) : List (α × Nat) :=
  (l.calls.filter fun c => c.trigger == trigger).map fun c => (c.source, c.time)

variable {l : Loop α} {e : Happened α} {later trace : List (Happened α)} {due k : Nat}

theorem beforeMoment_cons_of_none (hread : e.what.read? = none) (hdue : e.time ≤ due) :
    beforeMoment due (e :: later) = e :: beforeMoment due later := by
  simp [beforeMoment, hread, hdue]

theorem beforeMoment_cons_of_some {read : α → Option String} (hread : e.what.read? = some read) :
    beforeMoment due (e :: later) = [] := by
  simp [beforeMoment, hread]

/-- The moment comes when a source is read. -/
theorem hasCome_of_read {read : α → Option String} (hread : e.what.read? = some read) :
    Unopposed due (e :: later) ∧ HasCome due (e :: later) := by
  rw [Unopposed, HasCome, beforeMoment_cons_of_some hread]
  exact ⟨nofun, Nat.succ_pos _⟩

/-- What neither reads a source nor opposes the trigger leaves it to what happens later. -/
theorem unopposed_and_hasCome_cons (hread : e.what.read? = none) (hdue : e.time ≤ due) :
    (Unopposed due (e :: later) ∧ HasCome due (e :: later)) ↔
      e.what.opposes = false ∧ Unopposed due later ∧ HasCome due later := by
  rw [Unopposed, Unopposed, HasCome, HasCome, beforeMoment_cons_of_none hread hdue,
    List.forall_mem_cons, List.length_cons, List.length_cons, Nat.add_lt_add_iff_right, and_assoc]

theorem moment_cons_of_none (hread : e.what.read? = none) :
    moment due (e :: later) = moment due later := by
  have hflush : e.what.isFlush = false := by
    cases hwhat : e.what with
    | flush read =>
      rw [hwhat] at hread
      cases hread
    | _ => rfl
  rw [moment, moment, List.find?_cons_of_neg (by simp [hflush])]

/-! ## The sources that are read -/

theorem callsOf_after (l : Loop α) (e : Happened α) (k : Nat) :
    (l.after e).callsOf k = l.callsOf k ++
      ((readBy l.manager e).filter fun c => c.trigger == k).map fun c => (c.source, c.time) := by
  simp [callsOf, after]

theorem callsOf_after_of_none (hread : e.what.read? = none) (k : Nat) :
    (l.after e).callsOf k = l.callsOf k := by
  rw [callsOf_after, readBy_of_none hread, List.filter_nil, List.map_nil, List.append_nil]

/-- A trigger whose window is closed is never read for again. -/
theorem callsOf_gone (hwindow : ∀ w, l.manager.window = some w → w.source.1 ≠ k)
    (hk : k < l.triggers) (later : List (Happened α)) :
    (l.run later).callsOf k = l.callsOf k := by
  induction later generalizing l with
  | nil => rfl
  | cons e later ih =>
    have hcalls : (l.after e).callsOf k = l.callsOf k := by
      cases hread : e.what.read? with
      | none => exact callsOf_after_of_none hread k
      | some read =>
        rw [callsOf_after]
        cases hw : l.manager.window with
        | none => simp [readBy, hread, hw]
        | some w => simp [readBy, hread, hw, hwindow w hw]
    have htriggers : k < (l.after e).triggers := Nat.lt_of_lt_of_le hk (triggers_le_after l e)
    have hwindow' : ∀ w, (l.after e).manager.window = some w → w.source.1 ≠ k := by
      intro w hw
      rcases window_after_cases hw with ⟨hbefore, -⟩ | ⟨now, source, -, rfl⟩
      · exact hwindow w hbefore
      · exact Nat.ne_of_gt hk
    show ((l.after e).run later).callsOf k = _
    rw [ih hwindow' htriggers, hcalls]

/-- A source is read at the moment of its trigger. -/
theorem moment_of_read {read : α → Option String} (hread : e.what.read? = some read)
    {w : Window (Nat × α)} (hw : l.manager.window = some w) (h : l.InTime (e :: later)) :
    moment w.due (e :: later) = e.time := by
  obtain ⟨hadmits, hrest⟩ := h
  have hdue := hadmits.due w hw
  obtain ⟨now, what⟩ := e
  cases what with
  | flush read => exact Nat.min_eq_left hdue
  | windowEnds read =>
    obtain ⟨w', hw', hends⟩ := hadmits.ends read rfl
    rw [hw] at hw'
    obtain rfl := Option.some.inj hw'
    have hlater : moment w.due (⟨now, .windowEnds read⟩ :: later) = moment w.due later := rfl
    rw [hlater, moment]
    split
    · exact hends
    · rename_i f hf
      have hnow : now ≤ f.time := hrest.now_le f (List.mem_of_find?_eq_some hf)
      rw [Nat.min_eq_right (hends ▸ hnow)]
      exact hends
  | _ => cases hread

/-- If the source of a trigger is read, then it is read once. -/
theorem callsOf_read {read : α → Option String} (hread : e.what.read? = some read)
    {w : Window (Nat × α)} (hw : l.manager.window = some w) (hk : w.source.1 < l.triggers) :
    ((l.after e).run later).callsOf w.source.1 =
      l.callsOf w.source.1 ++ [(w.source.2, e.time)] := by
  have hk' : w.source.1 < (l.after e).triggers := Nat.lt_of_lt_of_le hk (triggers_le_after l e)
  have hclosed : ∀ v, (l.after e).manager.window = some v → v.source.1 ≠ w.source.1 := by
    intro v hv
    rw [window_after_read hread] at hv
    cases hv
  rw [callsOf_gone hclosed hk', callsOf_after]
  simp [readBy, hread, hw]

/-- The source of a trigger that is opposed is not read any more. -/
theorem callsOf_opposed (hread : e.what.read? = none) (hopposes : e.what.opposes = true)
    (hk : k < l.triggers) : ((l.after e).run later).callsOf k = l.callsOf k := by
  have hk' : k < (l.after e).triggers := Nat.lt_of_lt_of_le hk (triggers_le_after l e)
  -- A window that is open from now on is another trigger's.
  have hclosed : ∀ v, (l.after e).manager.window = some v → v.source.1 ≠ k := by
    intro v hv
    rcases window_after_cases hv with ⟨-, -, hquiet⟩ | ⟨now, source, -, rfl⟩
    · rw [hopposes] at hquiet
      cases hquiet
    · exact Nat.ne_of_gt hk
  rw [callsOf_gone hclosed hk', callsOf_after_of_none hread]

/-- The source of a trigger whose window is open is read once, at the moment of the trigger, if
this comes and nothing opposes the trigger before. The induction follows what happens next: the
source is read, or the trigger is opposed, or the window stays open. -/
theorem callsOf_waiting {w : Window (Nat × α)} (hw : l.manager.window = some w)
    (hk : w.source.1 < l.triggers) (h : l.InTime later) :
    (Unopposed w.due later ∧ HasCome w.due later → (l.run later).callsOf w.source.1 =
      l.callsOf w.source.1 ++ [(w.source.2, moment w.due later)]) ∧
    (¬ (Unopposed w.due later ∧ HasCome w.due later) →
      (l.run later).callsOf w.source.1 = l.callsOf w.source.1) := by
  induction later generalizing l with
  | nil =>
    refine ⟨?_, fun _ => rfl⟩
    rintro ⟨-, hcome⟩
    exact absurd hcome (Nat.lt_irrefl 0)
  | cons e later ih =>
    have hrun : l.run (e :: later) = (l.after e).run later := rfl
    rw [hrun]
    cases hread : e.what.read? with
    | some read =>
      rw [callsOf_read hread hw hk, moment_of_read hread hw h]
      exact ⟨fun _ => rfl, fun hnot => absurd (hasCome_of_read hread) hnot⟩
    | none =>
      rw [unopposed_and_hasCome_cons hread (h.1.due w hw), moment_cons_of_none hread]
      cases hopposes : e.what.opposes with
      | true =>
        rw [callsOf_opposed hread hopposes hk]
        exact ⟨nofun, fun _ => rfl⟩
      | false =>
        have hk' : w.source.1 < (l.after e).triggers :=
          Nat.lt_of_lt_of_le hk (triggers_le_after l e)
        have hcalls : (l.after e).callsOf w.source.1 = l.callsOf w.source.1 :=
          callsOf_after_of_none hread w.source.1
        rw [and_iff_right rfl, ← hcalls]
        exact ih ((window_after_quiet hread hopposes).trans hw) hk' h.2

/-! ## Open windows -/

/-- Nothing reads the source of a trigger or opposes it. -/
def Quiet (later : List (Happened α)) : Prop :=
  ∀ e ∈ later, e.what.read? = none ∧ e.what.opposes = false

theorem window_run_quiet (h : Quiet later) (l : Loop α) :
    (l.run later).manager.window = l.manager.window := by
  induction later generalizing l with
  | nil => rfl
  | cons e later ih =>
    obtain ⟨⟨hread, hopposes⟩, hlater⟩ := List.forall_mem_cons.1 h
    exact (ih hlater (l.after e)).trans (window_after_quiet hread hopposes)

/-- An open window was open all the time, or it was opened by a trigger that still waits. -/
theorem window_run_cases {w : Window (Nat × α)} (hw : (l.run trace).manager.window = some w) :
    (l.manager.window = some w ∧ Quiet trace) ∨
      ∃ before now source later, trace = before ++ ⟨now, .schedule source⟩ :: later ∧
        Quiet later := by
  induction trace generalizing l with
  | nil => exact .inl ⟨hw, nofun⟩
  | cons e trace ih =>
    rcases ih hw with ⟨hafter, hquiet⟩ | ⟨before, now, source, later, rfl, hquiet⟩
    · rcases window_after_cases hafter with ⟨hbefore, hstill⟩ | ⟨now, source, rfl, -⟩
      · exact .inl ⟨hbefore, List.forall_mem_cons.2 ⟨hstill, hquiet⟩⟩
      · exact .inr ⟨[], now, source, trace, rfl, hquiet⟩
    · exact .inr ⟨e :: before, now, source, later, rfl, hquiet⟩

/-- Nothing happens later than an open window is due. -/
theorem InTime.le_due {w : Window (Nat × α)} (hw : l.manager.window = some w)
    (h : l.InTime later) (hquiet : Quiet later) : ∀ e ∈ later, e.time ≤ w.due := by
  induction later generalizing l with
  | nil => nofun
  | cons d later ih =>
    obtain ⟨⟨hread, hopposes⟩, hlater⟩ := List.forall_mem_cons.1 hquiet
    refine List.forall_mem_cons.2 ⟨h.1.due w hw, ?_⟩
    exact ih ((window_after_quiet hread hopposes).trans hw) h.2 hlater

/-- A trigger waits if its moment has not come and nothing opposes it. -/
theorem quiet_iff {w : Window (Nat × α)} (hw : l.manager.window = some w) (h : l.InTime later) :
    Quiet later ↔ Unopposed w.due later ∧ ¬ HasCome w.due later := by
  constructor
  · intro hquiet
    have hall : beforeMoment w.due later = later := by
      refine List.takeWhile_eq_self_iff.2 fun e he => ?_
      simp [(hquiet e he).1, h.le_due hw hquiet e he]
    refine ⟨?_, ?_⟩
    · rw [Unopposed, hall]
      exact fun e he => (hquiet e he).2
    · rw [HasCome, hall]
      exact Nat.lt_irrefl _
  · rintro ⟨hfree, hcome⟩ e he
    have hprefix : beforeMoment w.due later <+: later := List.takeWhile_prefix _
    have hall : beforeMoment w.due later = later :=
      hprefix.eq_of_length_le (Nat.le_of_not_lt hcome)
    have hmem : e ∈ beforeMoment w.due later := by
      rw [hall]
      exact he
    refine ⟨?_, hfree e hmem⟩
    have hkept := List.mem_takeWhile_imp hmem
    simp only [Bool.and_eq_true, Option.isNone_iff_eq_none] at hkept
    exact hkept.1

/-! ## Runs -/

section Runs

variable {config : SavingConfig} {before later : List (Happened α)} {now : Nat} {source : α}

/-- A trigger opens a window, and what happens after it is in time. -/
theorem window_trigger
    (h : (start config : Loop α).InTime (before ++ ⟨now, .schedule source⟩ :: later)) :
    (((start config).run before).after ⟨now, .schedule source⟩).manager.window =
        some ⟨now + config.debounce, (((start config).run before).triggers, source)⟩ ∧
      (((start config).run before).after ⟨now, .schedule source⟩).InTime later := by
  rw [window_after_schedule, config_run]
  exact ⟨rfl, h.of_append.2⟩

theorem callsOf_run
    (h : (start config : Loop α).InTime (before ++ ⟨now, .schedule source⟩ :: later)) :
    (Unopposed (now + config.debounce) later ∧ HasCome (now + config.debounce) later →
      ((start config).run (before ++ ⟨now, .schedule source⟩ :: later)).callsOf
          ((start config).run before).triggers =
        [(source, moment (now + config.debounce) later)]) ∧
    (¬ (Unopposed (now + config.debounce) later ∧ HasCome (now + config.debounce) later) →
      ((start config).run (before ++ ⟨now, .schedule source⟩ :: later)).callsOf
        ((start config).run before).triggers = []) := by
  obtain ⟨hwindow, hlater⟩ := window_trigger h
  have hnone : (((start config).run before).after ⟨now, .schedule source⟩).callsOf
      ((start config).run before).triggers = [] := by
    rw [callsOf_after_of_none rfl, callsOf, List.map_eq_nil_iff, List.filter_eq_nil_iff]
    intro c hc
    have hlt := (known_run config before).read c hc
    simpa using Nat.ne_of_lt hlt
  have hcalls := callsOf_waiting hwindow (Nat.lt_succ_self _) hlater
  rw [hnone] at hcalls
  rw [run_append]
  exact hcalls

/-- A window is open exactly while a trigger waits. -/
theorem window_run {trace : List (Happened α)} (h : (start config : Loop α).InTime trace) :
    ((start config).run trace).manager.window.isSome = true ↔
      ∃ before now source later, trace = before ++ ⟨now, .schedule source⟩ :: later ∧
        Unopposed (now + config.debounce) later ∧ ¬ HasCome (now + config.debounce) later := by
  constructor
  · intro hopen
    obtain ⟨w, hw⟩ := Option.isSome_iff_exists.1 hopen
    rcases window_run_cases hw with ⟨hstart, -⟩ | ⟨before, now, source, later, rfl, hquiet⟩
    · cases hstart
    · obtain ⟨hwindow, hlater⟩ := window_trigger h
      exact ⟨before, now, source, later, rfl, (quiet_iff hwindow hlater).1 hquiet⟩
  · rintro ⟨before, now, source, later, rfl, hwaits⟩
    obtain ⟨hwindow, hlater⟩ := window_trigger h
    have hquiet : Quiet later := (quiet_iff hwindow hlater).2 hwaits
    have hstill := (window_run_quiet hquiet _).trans hwindow
    rw [run_append]
    exact Option.isSome_of_eq_some hstill

end Runs

/-- **The last trigger is kept.** If everything is in time, the source of each trigger is read once
and at its moment, when this has come and nothing opposed the trigger before, and otherwise never. A
window is open exactly while a trigger waits for its moment. The texts that were read are those of
the saves that windows started. All saves for which a flush was begun have ended when it returns. -/
theorem last_trigger_kept (config : SavingConfig) (trace : List (Happened α))
    (h : (start config : Loop α).InTime trace) :
    (∀ before now source later, trace = before ++ ⟨now, .schedule source⟩ :: later →
      (Unopposed (now + config.debounce) later ∧ HasCome (now + config.debounce) later →
        ((start config).run trace).callsOf ((start config).run before).triggers =
          [(source, moment (now + config.debounce) later)]) ∧
      (¬ (Unopposed (now + config.debounce) later ∧ HasCome (now + config.debounce) later) →
        ((start config).run trace).callsOf ((start config).run before).triggers = [])) ∧
    (((start config).run trace).manager.window.isSome = true ↔
      ∃ before now source later, trace = before ++ ⟨now, .schedule source⟩ :: later ∧
        Unopposed (now + config.debounce) later ∧ ¬ HasCome (now + config.debounce) later) ∧
    ((start config).run trace).created =
      ((start config).run trace).calls.filterMap Call.text ∧
    (∀ before now read later, trace = before ++ ⟨now, .flush read⟩ :: later →
      ((start config).run trace).flushes[((start config).run before).flushes.length]? =
        some .returned →
      ∀ s ∈ ((start config).run (before ++ [⟨now, .flush read⟩])).manager.saves,
        isTracked s = true → ((start config).run trace).roll.HasEnded s.number) ∧
    ∀ (σ : Type) [Saver σ α] (t : Timeline σ) (place : Nat), (t.flush place).2 = none →
      ∀ number ∈ (t.fired place).tracked place,
        ((t.flush place).1.end? place number).isSome := by
  refine ⟨?_, window_run h, created_run config trace, ?_,
    fun σ _ t place => Timeline.flush_returns t place⟩
  · rintro before now source later rfl
    exact callsOf_run h
  · rintro before now read later rfl
    exact flushes_run

/-- A second trigger comes before the window of the first one ends, and a flush before its own
window ends. -/
def flushed : List (Happened String) :=
  [⟨0, .schedule "old"⟩, ⟨400, .schedule "new"⟩, ⟨900, .flush some⟩, ⟨901, .goesOn 0 .done⟩]

theorem inTime_flushed : (start {} : Loop String).InTime flushed := by
  refine ⟨⟨by decide, ?_, nofun⟩, ⟨by decide, ?_, nofun⟩, ⟨by decide, ?_, nofun⟩,
    ⟨by decide, ?_, nofun⟩, trivial⟩
  · intro w hw
    cases hw
  · intro w hw
    cases hw
    decide
  · intro w hw
    cases hw
    decide
  · intro w hw
    cases hw

/-- The text of the second trigger is saved, and when this is done the flush returns. -/
theorem flushed_once :
    (start {} : Loop String).InTime flushed ∧
      ((start {}).run flushed).callsOf 0 = [] ∧
      ((start {}).run flushed).callsOf 1 = [("new", 900)] ∧
      ((start {}).run flushed).roll.HasEnded 0 := by
  obtain ⟨hcalls, -, -, hflushes, -⟩ := last_trigger_kept {} flushed inTime_flushed
  have hfirst := hcalls [] 0 "old" flushed.tail rfl
  have hsecond := hcalls [⟨0, .schedule "old"⟩] 400 "new" (flushed.drop 2) rfl
  have hflush := hflushes (flushed.take 2) 900 some (flushed.drop 3) rfl
  have hopposed : ¬ Unopposed 1000 flushed.tail := fun hfree =>
    absurd (hfree ⟨400, .schedule "new"⟩ List.mem_cons_self) (by decide)
  have hfree : Unopposed 1400 (flushed.drop 2) := nofun
  have hcome : HasCome 1400 (flushed.drop 2) := Nat.succ_pos 1
  refine ⟨inTime_flushed, hfirst.2 fun hwaits => hopposed hwaits.1, hsecond.1 ⟨hfree, hcome⟩, ?_⟩
  exact hflush rfl ⟨0, none, "new", .created, 900⟩ List.mem_cons_self rfl

end Loop

end Spreadsheet
