import Spreadsheet.Proofs.Saving.Rolls

/-!
# A manager in a running loop

In a running loop a manager is triggered, its window is closed without a save or flushed, and the
manager is closed, and meanwhile its saves go on. Each trigger has a number, which the window carries
with its source, so that it can be told for which trigger a source is read.

The loop is in time if a window ends when it is due and nothing else happens later than that
(`InTime`). The turns of a timeline are in time: none comes after the end of a window that is still
open (`Timeline.due_le_of_next?`).

**Main facts.** A window that is open was opened by a trigger, and neither read nor opposed since
(`window_after_cases`). Each text that is read is the text of one save that a window started
(`created_run`).
-/

namespace Spreadsheet

variable {α : Type}

open Manager

/-! ## What happens -/

/-- What happens to a manager in a running loop. -/
inductive Happening (α : Type) where
  | schedule (source : α)
  | cancelPending
  /-- A flush is begun. If a window is open, its source is read. -/
  | flush (read : α → Option String)
  /-- Closing is begun. -/
  | aclose
  /-- The window ends by itself. -/
  | windowEnds (read : α → Option String)
  /-- A text is saved without a window. -/
  | save (ticket : Nat) (data : String)
  /-- The save with a number goes on. If it sends a request, this is the reply. -/
  | goesOn (number : Nat) (reply : Reply)
  /-- The save with a number is cancelled. -/
  | cancelled (number : Nat)
  /-- The connection is closed. -/
  | disconnected

namespace Happening

/-- What happens is an act. A trigger has a number. -/
def act (now trigger : Nat) : Happening α → Act (Nat × α)
  | schedule source => .move (.schedule now (trigger, source))
  | cancelPending => .move .cancelPending
  | flush read => .move (.fire now fun source => read source.2)
  | aclose => .move .cancelPending
  | windowEnds read => .move (.fire now fun source => read source.2)
  | save ticket data => .move (.create now (some ticket) data)
  | goesOn number reply => .move (.resume now number reply)
  | cancelled number => .cancel number
  | disconnected => .disconnect

def isTrigger : Happening α → Bool
  | schedule _ => true
  | _ => false

def isFlush : Happening α → Bool
  | flush _ => true
  | _ => false

/-- The source of an open window is read. -/
def read? : Happening α → Option (α → Option String)
  | flush read => some read
  | windowEnds read => some read
  | _ => none

/-- A window that is open is closed without reading its source. -/
def opposes : Happening α → Bool
  | schedule _ => true
  | cancelPending => true
  | aclose => true
  | _ => false

end Happening

/-- What happened, and when. -/
structure Happened (α : Type) where
  time : Nat
  what : Happening α

/-- The source of a trigger was read. -/
structure Call (α : Type) where
  trigger : Nat
  source : α
  time : Nat
  text : Option String

/-- A flush that was begun: it waits for saves, or it has returned, or it was broken off. -/
inductive Flush where
  | waits (left : List Nat)
  | returned
  | raised

namespace Flush

/-- A flush that waits for saves, if there are any. -/
def begin : List Nat → Flush
  | [] => .returned
  | left => .waits left

/-- A flush after a save has ended. It is broken off by a save that broke off or was cancelled. -/
def hear (f : Flush) (e : Nat × Option SaveEnd) : Flush :=
  match f with
  | .waits left =>
    if left.contains e.1 then
      match e.2 with
      | none => .raised
      | some (.broken _) => .raised
      | _ => begin (left.filter fun number => number != e.1)
    else f
  | f => f

end Flush

/-! ## The loop -/

/-- The loop: its clock, the manager with the roll of its saves, the number of triggers, the sources
that were read, the texts of the saves that windows started, and the flushes that were begun. -/
structure Loop (α : Type) where
  now : Nat := 0
  roll : Roll (Nat × α)
  triggers : Nat := 0
  calls : List (Call α) := []
  created : List String := []
  flushes : List Flush := []

namespace Loop

def start (config : SavingConfig) : Loop α := { roll := Roll.start config }

def manager (l : Loop α) : Manager (Nat × α) := l.roll.manager

/-- The sources that are read. -/
def readBy (m : Manager (Nat × α)) (e : Happened α) : List (Call α) :=
  match e.what.read? with
  | none => []
  | some read =>
    m.window.toList.map fun w => ⟨w.source.1, w.source.2, e.time, read w.source.2⟩

/-- The texts of the tracked saves that one manager has and another one before it had not. -/
def textsSince (m n : Manager (Nat × α)) : List String :=
  (n.saves.filter fun s => isTracked s && m.created ≤ s.number).map Save.data

/-- The flush that is begun. It waits for the tracked saves that have not ended. -/
def begunBy (m : Manager (Nat × α)) (e : Happened α) : List Flush :=
  if e.what.isFlush then [Flush.begin ((m.saves.filter isTracked).map Save.number)] else []

/-- The loop after something has happened. Flushes hear of all saves that have ended. -/
def after (l : Loop α) (e : Happened α) : Loop α :=
  let roll := l.roll.act (e.what.act e.time l.triggers)
  { now := e.time
    roll := roll
    triggers := if e.what.isTrigger then l.triggers + 1 else l.triggers
    calls := l.calls ++ readBy l.manager e
    created := l.created ++ textsSince l.manager roll.manager
    flushes := (l.flushes ++ begunBy roll.manager e).map fun f =>
      (roll.ended.drop l.roll.ended.length).foldl Flush.hear f }

def run (l : Loop α) (trace : List (Happened α)) : Loop α := trace.foldl after l

/-- Something may happen now: no open window is due before, and a window ends when it is due. -/
structure Admits (l : Loop α) (e : Happened α) : Prop where
  now : l.now ≤ e.time
  due : ∀ w, l.manager.window = some w → e.time ≤ w.due
  ends : ∀ read, e.what = .windowEnds read → ∃ w, l.manager.window = some w ∧ w.due = e.time

/-- Everything happens when it may. -/
def InTime (l : Loop α) : List (Happened α) → Prop
  | [] => True
  | e :: trace => l.Admits e ∧ (l.after e).InTime trace

variable {l : Loop α} {e : Happened α} {later trace : List (Happened α)}

/-! ## Runs -/

/-- What everything that happens preserves holds after every run. -/
theorem run_induction {p : Loop α → Prop} (hl : p l) (hafter : ∀ l e, p l → p (l.after e))
    (trace : List (Happened α)) : p (l.run trace) := by
  induction trace generalizing l with
  | nil => exact hl
  | cons e trace ih => exact ih (hafter l e hl)

theorem run_append (l : Loop α) (before later : List (Happened α)) :
    l.run (before ++ later) = (l.run before).run later :=
  List.foldl_append

theorem InTime.of_append {before : List (Happened α)} (h : l.InTime (before ++ later)) :
    (l.run before).InTime later := by
  induction before generalizing l with
  | nil => exact h
  | cons e before ih => exact ih h.2

theorem config_after (l : Loop α) (e : Happened α) :
    (l.after e).manager.config = l.manager.config := by
  show (l.roll.act (e.what.act e.time l.triggers)).manager.config = _
  cases e.what.act e.time l.triggers with
  | move v => exact config_move l.roll.manager v
  | cancel number =>
    rw [Roll.act]
    split
    · rfl
    · rw [Roll.cancelled_eq]
      rfl
  | disconnect => rfl

theorem config_run (config : SavingConfig) (trace : List (Happened α)) :
    ((start config : Loop α).run trace).manager.config = config :=
  run_induction (p := fun l => l.manager.config = config) rfl
    (fun l e hl => (config_after l e).trans hl) trace

theorem InTime.now_le (h : l.InTime trace) : ∀ e ∈ trace, l.now ≤ e.time := by
  induction trace generalizing l with
  | nil => nofun
  | cons d trace ih =>
    obtain ⟨hadmits, hrest⟩ := h
    intro e he
    rcases List.mem_cons.1 he with rfl | he
    · exact hadmits.now
    · exact Nat.le_trans hadmits.now (ih hrest e he)

/-! ## The window -/

theorem window_fire (m : Manager (Nat × α)) (now : Nat) (read : Nat × α → Option String) :
    (m.fire now read).manager.window = none := by
  have hfires := m.fires_fire now read
  generalize m.fire now read = step at hfires ⊢
  cases hfires with
  | closed hw => exact hw
  | saves => rfl
  | skips => rfl

theorem window_cancelled (m : Manager α) (s : Save) : (m.cancelled s).window = m.window := by
  unfold Manager.cancelled
  split <;> rfl

theorem window_after_read {read : α → Option String} (hread : e.what.read? = some read) :
    (l.after e).manager.window = none := by
  obtain ⟨now, what⟩ := e
  cases what <;> first | exact window_fire _ _ _ | cases hread

theorem window_after_schedule (l : Loop α) (now : Nat) (source : α) :
    (l.after ⟨now, .schedule source⟩).manager.window =
      some ⟨now + l.manager.config.debounce, (l.triggers, source)⟩ :=
  rfl

theorem window_after_quiet (hread : e.what.read? = none) (hopposes : e.what.opposes = false) :
    (l.after e).manager.window = l.manager.window := by
  obtain ⟨now, what⟩ := e
  cases what with
  | save ticket data => rfl
  | disconnected => rfl
  | goesOn number reply => exact window_resume l.manager now number reply
  | cancelled number =>
    show (l.roll.act (.cancel number)).manager.window = l.roll.manager.window
    rw [Roll.act]
    split
    · rfl
    · exact window_cancelled _ _
  | flush read => cases hread
  | windowEnds read => cases hread
  | _ => cases hopposes

/-- A window that is open was open before, or it was opened by a trigger. -/
theorem window_after_cases {w : Window (Nat × α)} (hw : (l.after e).manager.window = some w) :
    (l.manager.window = some w ∧ e.what.read? = none ∧ e.what.opposes = false) ∨
      ∃ now source, e = ⟨now, .schedule source⟩ ∧
        w = ⟨now + l.manager.config.debounce, (l.triggers, source)⟩ := by
  cases hread : e.what.read? with
  | some read =>
    rw [window_after_read hread] at hw
    cases hw
  | none =>
    cases hopposes : e.what.opposes with
    | false =>
      rw [window_after_quiet hread hopposes] at hw
      exact .inl ⟨hw, rfl, rfl⟩
    | true =>
      obtain ⟨now, what⟩ := e
      cases what with
      | schedule source =>
        rw [window_after_schedule] at hw
        exact .inr ⟨now, source, rfl, (Option.some.inj hw).symm⟩
      | cancelPending => cases hw
      | aclose => cases hw
      | _ => cases hopposes

/-! ## Numbers of triggers -/

theorem triggers_le_after (l : Loop α) (e : Happened α) : l.triggers ≤ (l.after e).triggers := by
  show l.triggers ≤ if e.what.isTrigger then l.triggers + 1 else l.triggers
  split
  · exact Nat.le_succ _
  · exact Nat.le_refl _

/-- The numbers of triggers were given out. -/
structure Known (l : Loop α) : Prop where
  read : ∀ c ∈ l.calls, c.trigger < l.triggers
  opened : ∀ w, l.manager.window = some w → w.source.1 < l.triggers

theorem Known.after (h : l.Known) (e : Happened α) : (l.after e).Known where
  read := by
    intro c hc
    refine Nat.lt_of_lt_of_le ?_ (triggers_le_after l e)
    rcases List.mem_append.1 hc with hc | hc
    · exact h.read c hc
    · unfold readBy at hc
      split at hc
      · cases hc
      · obtain ⟨w, hw, rfl⟩ := List.mem_map.1 hc
        exact h.opened w (Option.mem_toList.1 hw)
  opened := by
    intro w hw
    rcases window_after_cases hw with ⟨hbefore, -⟩ | ⟨now, source, rfl, rfl⟩
    · exact Nat.lt_of_lt_of_le (h.opened w hbefore) (triggers_le_after l e)
    · exact Nat.lt_succ_self _

theorem known_start (config : SavingConfig) : (start config : Loop α).Known where
  read := nofun
  opened := by
    intro w hw
    cases hw

theorem known_run (config : SavingConfig) (trace : List (Happened α)) :
    ((start config : Loop α).run trace).Known :=
  run_induction (known_start config) (fun _ e hl => hl.after e) trace

/-! ## The saves that windows start -/

theorem readBy_of_none (hread : e.what.read? = none) (m : Manager (Nat × α)) : readBy m e = [] := by
  rw [readBy, hread]

theorem textsSince_eq_nil {m n : Manager (Nat × α)} (hn : n.Numbered)
    (hcreated : n.created = m.created) : textsSince m n = [] := by
  rw [textsSince, List.map_eq_nil_iff, List.filter_eq_nil_iff]
  intro s hs
  have hlt := hn.lt s hs
  simp only [Bool.and_eq_true, decide_eq_true_eq, not_and, Nat.not_le]
  exact fun _ => hcreated ▸ hlt

/-- A save that is created is tracked if it has no ticket. -/
theorem textsSince_create {m n : Manager (Nat × α)} (hm : m.Numbered)
    (hsaves : n.saves = m.saves) (hcreated : n.created = m.created) (now : Nat)
    (ticket : Option Nat) (data : String) :
    textsSince m (n.create now ticket data) = if ticket.isNone then [data] else [] := by
  have hold : n.saves.filter (fun s => isTracked s && m.created ≤ s.number) = [] := by
    have hnil := textsSince_eq_nil hm rfl
    rw [textsSince, List.map_eq_nil_iff] at hnil
    rw [hsaves]
    exact hnil
  rw [textsSince, create, List.filter_append, hold, List.nil_append, hcreated]
  cases ticket <;> simp [isTracked]

theorem textsSince_after (h : l.roll.Kept) (e : Happened α) :
    textsSince l.manager (l.after e).manager = (readBy l.manager e).filterMap Call.text := by
  have hquiet : (l.after e).manager.created = l.manager.created →
      textsSince l.manager (l.after e).manager = [] :=
    textsSince_eq_nil (h.act _).numbered
  have hfire : ∀ now (read : α → Option String), textsSince l.manager
      (l.manager.fire now fun source => read source.2).manager =
        (l.manager.window.toList.map fun w =>
          (⟨w.source.1, w.source.2, now, read w.source.2⟩ : Call α)).filterMap Call.text := by
    intro now read
    have hfires := l.manager.fires_fire now fun source => read source.2
    generalize (l.manager.fire now fun source => read source.2) = step at hfires ⊢
    cases hfires with
    | closed hw =>
      rw [hw]
      exact textsSince_eq_nil h.numbered rfl
    | @saves w data hw hread =>
      simp only [hw, hread, Option.toList_some, List.map_cons, List.map_nil, List.filterMap_cons,
        List.filterMap_nil]
      exact textsSince_create h.numbered rfl rfl now none data
    | skips hw hread =>
      simp only [hw, hread, Option.toList_some, List.map_cons, List.map_nil, List.filterMap_cons,
        List.filterMap_nil]
      exact textsSince_eq_nil ⟨h.numbered.nodup, h.numbered.lt⟩ rfl
  obtain ⟨now, what⟩ := e
  cases what with
  | flush read => exact hfire now read
  | windowEnds read => exact hfire now read
  | save ticket data => exact textsSince_create h.numbered rfl rfl now (some ticket) data
  | schedule source => exact hquiet rfl
  | cancelPending => exact hquiet rfl
  | aclose => exact hquiet rfl
  | disconnected => exact hquiet rfl
  | goesOn number reply => exact hquiet (created_resume l.manager now number reply)
  | cancelled number =>
    refine hquiet ?_
    show (l.roll.act (.cancel number)).manager.created = l.roll.manager.created
    rw [Roll.act]
    split
    · rfl
    · exact Roll.created_cancelled _ _

theorem created_run (config : SavingConfig) (trace : List (Happened α)) :
    ((start config : Loop α).run trace).created =
      ((start config : Loop α).run trace).calls.filterMap Call.text := by
  refine (run_induction (p := fun l => l.roll.Kept ∧ l.created = l.calls.filterMap Call.text)
    ⟨Roll.kept_start config, rfl⟩ (fun l e hl => ⟨hl.1.act _, ?_⟩) trace).2
  show l.created ++ textsSince l.manager (l.after e).manager =
    (l.calls ++ readBy l.manager e).filterMap Call.text
  rw [textsSince_after hl.1, hl.2, List.filterMap_append]

end Loop

/-! ## Timelines -/

namespace Timeline

variable {σ β : Type}

theorem earliest?_eq_none {l : List (Nat × β)} (h : earliest? l = none) : l = [] := by
  cases l with
  | nil => rfl
  | cons x l =>
    simp only [earliest?] at h
    split at h
    · cases h
    · split at h <;> cases h

theorem le_of_earliest? {l : List (Nat × β)} {x : Nat × β} (h : earliest? l = some x) :
    ∀ y ∈ l, x.1 ≤ y.1 := by
  induction l generalizing x with
  | nil => nofun
  | cons z l ih =>
    rw [List.forall_mem_cons]
    simp only [earliest?] at h
    split at h
    · rename_i hnone
      cases h
      rw [earliest?_eq_none hnone]
      exact ⟨Nat.le_refl _, nofun⟩
    · rename_i u hu
      split at h
      · rename_i hle
        cases h
        exact ⟨Nat.le_refl _, fun y hy => Nat.le_trans hle (ih hu y hy)⟩
      · rename_i hlt
        cases h
        exact ⟨Nat.le_of_not_le hlt, ih hu⟩

/-- **The turns of a timeline are in time.** None is later than the end of an open window, and a
window ends when it is due. -/
theorem due_le_of_next? [Saver σ α] {t : Timeline σ} {due place : Nat} {turn : Turn}
    (h : t.next? = some (due, place, turn)) :
    (∀ (i : Nat) (saver : σ) (w : Window α), t.savers[i]? = some saver →
      (Saver.manager saver).window = some w → due ≤ w.due) ∧
    (turn = none → ∃ (saver : σ) (w : Window α), t.savers[place]? = some saver ∧
      (Saver.manager saver).window = some w ∧ w.due = due) := by
  constructor
  · intro i saver w hsaver hw
    have hturn : (w.due, i, none) ∈ t.turns := by
      refine List.mem_flatMap.2 ⟨(saver, i), List.mem_zipIdx_iff_getElem?.2 hsaver, ?_⟩
      refine List.mem_map.2 ⟨(w.due, none), ?_, rfl⟩
      simp [turnsOf, hw]
    exact le_of_earliest? h _ hturn
  · rintro rfl
    obtain ⟨saver, hsaver, hturn⟩ := mem_turnsOf_of_next? h
    simp only [turnsOf, List.mem_append, List.mem_map, Option.mem_toList, Prod.mk.injEq] at hturn
    rcases hturn with ⟨w, hw, hdue, -⟩ | ⟨s, -, -, hnone⟩
    · exact ⟨saver, w, hsaver, hw, hdue⟩
    · cases hnone

end Timeline

end Spreadsheet
