import Spreadsheet.Proofs.Saving.Loop

/-!
# Nothing happens after closing

A manager is closed in three steps: its window is closed without a save, the saves that windows have
started are cancelled, and when all of them have ended the connection is closed (`Closes`). Other
things may happen meanwhile, such as a flush that goes on or a response that arrives.

**Theorem (`quiet_after_close`).** If all saves were started by windows, and nothing is triggered or
saved from the beginning of a close on, then nothing at all is seen of the manager once the close has
returned: no request, no notice and no record. No source is read, no window is open, and the flag that
a save is running is not set.

While it closes, a manager has no window, so no save is added to those that are cancelled
(`fewer_run`). After that there is neither a window nor a save (`Silent`), and both stay away
(`Silent.run`).
-/

namespace Spreadsheet

variable {α : Type}

open Manager

namespace Happening

/-- A text is to be saved: a window is opened for it, or it is saved without one. -/
def asks : Happening α → Bool
  | schedule _ => true
  | save _ _ => true
  | _ => false

/-- A text is saved without a window. -/
def isDirect : Happening α → Bool
  | save _ _ => true
  | _ => false

end Happening

namespace Loop

/-! ## What is seen -/

/-- What is seen of an act. A save that is cancelled leaves no trace. -/
def effectsOf (m : Manager α) : Act α → List Effect
  | .move v => (m.move v).effects
  | .cancel _ => []
  | .disconnect => []

/-- What is seen of all that happens. -/
def seen (l : Loop α) : List (Happened α) → List Effect
  | [] => []
  | e :: trace => effectsOf l.manager (e.what.act e.time l.triggers) ++ (l.after e).seen trace

/-! ## Closing -/

/-- A close from its beginning to its return: it closes the window, it waits until all saves have
ended that windows had started, and it closes the connection. Nothing is to be saved meanwhile. -/
def Closes (l : Loop α) (trace : List (Happened α)) : Prop :=
  ∃ begun meanwhile returned,
    trace = ⟨begun, .aclose⟩ :: meanwhile ++ [⟨returned, .disconnected⟩] ∧
    (∀ e ∈ meanwhile, e.what.asks = false) ∧
    ∀ s ∈ l.manager.saves, isTracked s = true →
      (l.run (⟨begun, .aclose⟩ :: meanwhile)).roll.HasEnded s.number

variable {l : Loop α} {e : Happened α} {trace : List (Happened α)}

theorem kept_run (h : l.roll.Kept) (trace : List (Happened α)) : (l.run trace).roll.Kept :=
  run_induction (p := fun l => l.roll.Kept) h (fun _ _ hl => hl.act _) trace

/-- Each save was there before, or the window ended with it, or it was asked for. -/
theorem mem_saves_after {t : Save} (ht : t ∈ (l.after e).manager.saves) :
    (∃ s ∈ l.manager.saves, s.number = t.number ∧ s.ticket = t.ticket) ∨
      (l.manager.window ≠ none ∧ t.ticket = none) ∨ e.what.isDirect = true := by
  have hsame : t ∈ l.manager.saves →
      ∃ s ∈ l.manager.saves, s.number = t.number ∧ s.ticket = t.ticket :=
    fun ht => ⟨t, ht, rfl, rfl⟩
  have hfire : ∀ now (read : α → Option String),
      t ∈ (l.manager.fire now fun source => read source.2).manager.saves →
      (∃ s ∈ l.manager.saves, s.number = t.number ∧ s.ticket = t.ticket) ∨
        (l.manager.window ≠ none ∧ t.ticket = none) ∨ e.what.isDirect = true := by
    intro now read ht
    refine (mem_fire ht).imp hsame ?_
    rintro ⟨hwindow, -, hticket, -⟩
    exact .inl ⟨hwindow, hticket⟩
  obtain ⟨now, what⟩ := e
  cases what with
  | schedule source => exact .inl (hsame ht)
  | cancelPending => exact .inl (hsame ht)
  | aclose => exact .inl (hsame ht)
  | disconnected => exact .inl (hsame ht)
  | flush read => exact hfire now read ht
  | windowEnds read => exact hfire now read ht
  | save ticket data => exact .inr (.inr rfl)
  | goesOn number reply =>
    have ht' : t ∈ (l.manager.move (.resume now number reply)).manager.saves := ht
    rcases mem_resume ht' with hmem | ⟨s, hs, -, hnumber, hticket, -⟩
    · exact .inl (hsame hmem)
    · exact .inl ⟨s, hs, hnumber.symm, hticket.symm⟩
  | cancelled number =>
    have ht' : t ∈ (l.roll.act (.cancel number)).manager.saves := ht
    rw [Roll.act] at ht'
    split at ht'
    · exact .inl (hsame ht')
    · rw [Roll.saves_cancelled] at ht'
      exact .inl (hsame (mem_others.1 ht').1)

/-- If no text is saved without a window, all saves are tracked. -/
theorem tracked_run (h : ∀ s ∈ l.manager.saves, isTracked s = true)
    (htrace : ∀ e ∈ trace, e.what.isDirect = false) :
    ∀ s ∈ (l.run trace).manager.saves, isTracked s = true := by
  induction trace generalizing l with
  | nil => exact h
  | cons e trace ih =>
    obtain ⟨he, htrace⟩ := List.forall_mem_cons.1 htrace
    refine ih (fun t ht => ?_) htrace
    rcases mem_saves_after ht with ⟨s, hs, -, hticket⟩ | ⟨-, hticket⟩ | hdirect
    · rw [isTracked, ← hticket]
      exact h s hs
    · rw [isTracked, hticket]
      rfl
    · rw [he] at hdirect
      cases hdirect

/-! ## While the manager closes -/

theorem not_isDirect (h : e.what.asks = false) : e.what.isDirect = false := by
  obtain ⟨now, what⟩ := e
  cases what <;> first | rfl | cases h

/-- Without a trigger no window is opened. -/
theorem window_after_none (hw : l.manager.window = none) (he : e.what.asks = false) :
    (l.after e).manager.window = none := by
  cases hafter : (l.after e).manager.window with
  | none => rfl
  | some w =>
    rcases window_after_cases hafter with ⟨hbefore, -⟩ | ⟨now, source, rfl, -⟩
    · rw [hw] at hbefore
      cases hbefore
    · cases he

/-- Without a window and without being asked for, no save is added. -/
theorem fewer_run (hw : l.manager.window = none) (htrace : ∀ e ∈ trace, e.what.asks = false) :
    (l.run trace).manager.window = none ∧
      ∀ t ∈ (l.run trace).manager.saves, ∃ s ∈ l.manager.saves, s.number = t.number := by
  induction trace generalizing l with
  | nil => exact ⟨hw, fun t ht => ⟨t, ht, rfl⟩⟩
  | cons e trace ih =>
    obtain ⟨he, htrace⟩ := List.forall_mem_cons.1 htrace
    obtain ⟨hwindow, hsaves⟩ := ih (window_after_none hw he) htrace
    refine ⟨hwindow, fun t ht => ?_⟩
    obtain ⟨u, hu, hnumber⟩ := hsaves t ht
    rcases mem_saves_after hu with ⟨s, hs, hsame, -⟩ | ⟨hopen, -⟩ | hdirect
    · exact ⟨s, hs, hsame.trans hnumber⟩
    · exact absurd hw hopen
    · rw [not_isDirect he] at hdirect
      cases hdirect

/-! ## Silence -/

/-- Neither a window nor a save is left. -/
structure Silent (l : Loop α) : Prop where
  window : l.manager.window = none
  saves : l.manager.saves = []

theorem Silent.after (h : l.Silent) (he : e.what.asks = false) : (l.after e).Silent := by
  refine ⟨window_after_none h.window he, List.eq_nil_iff_forall_not_mem.2 fun t ht => ?_⟩
  have htrace : ∀ d ∈ [e], d.what.asks = false := by simpa using he
  obtain ⟨-, hsaves⟩ := fewer_run h.window htrace
  obtain ⟨s, hs, -⟩ := hsaves t ht
  rw [h.saves] at hs
  cases hs

/-- Nothing is seen, and no source is read, unless a text is to be saved. -/
theorem Silent.quiet (h : l.Silent) (he : e.what.asks = false) :
    effectsOf l.manager (e.what.act e.time l.triggers) = [] ∧ readBy l.manager e = [] := by
  have hfire : ∀ now (read : Nat × α → Option String), (l.manager.fire now read).effects = [] := by
    intro now read
    have hfires := l.manager.fires_fire now read
    generalize l.manager.fire now read = step at hfires ⊢
    cases hfires with
    | closed => rfl
    | saves hw => cases h.window.symm.trans hw
    | skips hw => cases h.window.symm.trans hw
  have hread : readBy l.manager e = [] := by
    unfold readBy
    rw [h.window]
    cases e.what.read? <;> rfl
  refine ⟨?_, hread⟩
  obtain ⟨now, what⟩ := e
  cases what with
  | schedule source => cases he
  | save ticket data => cases he
  | cancelPending => rfl
  | aclose => rfl
  | cancelled number => rfl
  | disconnected => rfl
  | flush read => exact hfire now _
  | windowEnds read => exact hfire now _
  | goesOn number reply =>
    have hfind : l.manager.find? number = none := by
      rw [Manager.find?, h.saves]
      rfl
    show (l.manager.move (.resume now number reply)).effects = []
    simp only [Manager.move, hfind]

/-- **Silence lasts** until a text is to be saved. -/
theorem Silent.run (h : l.Silent) (htrace : ∀ e ∈ trace, e.what.asks = false) :
    (l.run trace).Silent ∧ l.seen trace = [] ∧ (l.run trace).calls = l.calls := by
  induction trace generalizing l with
  | nil => exact ⟨h, rfl, rfl⟩
  | cons e trace ih =>
    obtain ⟨he, htrace⟩ := List.forall_mem_cons.1 htrace
    obtain ⟨hseen, hread⟩ := h.quiet he
    obtain ⟨hsilent, hlater, hcalls⟩ := ih (h.after he) htrace
    refine ⟨hsilent, ?_, hcalls.trans ?_⟩
    · rw [seen, hseen, hlater]
      rfl
    · show l.calls ++ readBy l.manager e = l.calls
      rw [hread, List.append_nil]

/-- A manager is silent once a close has returned. -/
theorem Closes.silent (h : l.Closes trace) (hkept : l.roll.Kept)
    (htracked : ∀ s ∈ l.manager.saves, isTracked s = true) : (l.run trace).Silent := by
  obtain ⟨begun, meanwhile, returned, rfl, hquiet, hended⟩ := h
  obtain ⟨hwindow, hfewer⟩ := fewer_run (l := l.after ⟨begun, .aclose⟩) rfl hquiet
  have hrun : l.run (⟨begun, .aclose⟩ :: meanwhile) =
      (l.after ⟨begun, .aclose⟩).run meanwhile := rfl
  have hstill := kept_run hkept (⟨begun, .aclose⟩ :: meanwhile)
  rw [hrun] at hstill hended
  have hsilent : ((l.after ⟨begun, .aclose⟩).run meanwhile).Silent := by
    refine ⟨hwindow, List.eq_nil_iff_forall_not_mem.2 fun t ht => ?_⟩
    obtain ⟨s, hs, hnumber⟩ := hfewer t ht
    exact ((hstill.ended s.number).1 (hended s hs (htracked s hs))).2 t ht hnumber.symm
  rw [run_append]
  exact hsilent.after rfl

/-- The flag is not set if no save is left. -/
theorem Silent.isSaving (h : l.Silent) (hkept : l.roll.Kept) : l.manager.isSaving = false := by
  rw [Bool.eq_false_iff]
  intro hset
  obtain ⟨s, hs, -⟩ := hkept.isSaving.1 hset
  have hs' : s ∈ l.manager.saves := hs
  rw [h.saves] at hs'
  cases hs'

/-! ## Closing at once -/

/-- A close in which nothing else happens: the saves are cancelled one after the other. -/
def closing (now : Nat) (m : Manager (Nat × α)) : List (Happened α) :=
  ⟨now, .aclose⟩ :: ((m.saves.filter isTracked).map fun s => ⟨now, .cancelled s.number⟩) ++
    [⟨now, .disconnected⟩]

/-- Without a trigger, what happens is a list of acts. -/
theorem roll_run (htrace : ∀ e ∈ trace, e.what.isTrigger = false) :
    (l.run trace).roll = l.roll.run (trace.map fun e => e.what.act e.time l.triggers) := by
  induction trace generalizing l with
  | nil => rfl
  | cons e trace ih =>
    obtain ⟨he, htrace⟩ := List.forall_mem_cons.1 htrace
    have htriggers : (l.after e).triggers = l.triggers := by
      show (if e.what.isTrigger then l.triggers + 1 else l.triggers) = l.triggers
      rw [he]
      rfl
    have hrest := ih (l := l.after e) htrace
    rw [htriggers] at hrest
    exact hrest

/-- **Closing at once is a close**, and it leaves the manager closed. -/
theorem closes_closing (h : l.roll.Kept) (now : Nat) :
    l.Closes (closing now l.manager) ∧
      (l.run (closing now l.manager)).manager = l.manager.close := by
  have hcancels : ∀ e ∈ (l.manager.saves.filter isTracked).map
      (fun s => (⟨now, .cancelled s.number⟩ : Happened α)), e.what.asks = false ∧
        e.what.isTrigger = false := by
    intro e he
    obtain ⟨s, -, rfl⟩ := List.mem_map.1 he
    exact ⟨rfl, rfl⟩
  constructor
  · have hended : ((l.roll.act (.move .cancelPending)).run
        ((l.manager.saves.filter isTracked).map fun s => .cancel s.number)).ended =
          l.roll.ended ++ (l.manager.saves.filter isTracked).map fun s => (s.number, none) := by
      rw [Roll.act_move rfl rfl]
      exact congrArg Roll.ended (Roll.run_cancel
        (r := { l.roll with manager := l.manager.cancelPending })
        ⟨h.numbered.nodup, h.numbered.lt⟩ _ List.filter_sublist)
    refine ⟨now, _, now, rfl, fun e he => (hcancels e he).1, fun s hs htracked => ⟨none, ?_⟩⟩
    have hmem : (s.number, none) ∈ l.roll.ended ++
        (l.manager.saves.filter isTracked).map fun s => (s.number, (none : Option SaveEnd)) :=
      List.mem_append_right _ (List.mem_map.2 ⟨s, List.mem_filter.2 ⟨hs, htracked⟩, rfl⟩)
    rw [roll_run (List.forall_mem_cons.2 ⟨rfl, fun e he => (hcancels e he).2⟩), List.map_cons,
      List.map_map]
    exact hended.symm ▸ hmem
  · have hacts : (closing now l.manager).map (fun e => e.what.act e.time l.triggers) =
        Roll.closing l.manager := by
      simp [closing, Roll.closing, Happening.act, Function.comp_def]
    have htriggers : ∀ e ∈ closing now l.manager, e.what.isTrigger = false := by
      intro e he
      rcases List.mem_append.1 he with he | he
      · rcases List.mem_cons.1 he with rfl | he
        · rfl
        · exact (hcancels e he).2
      · rw [List.mem_singleton.1 he]
        rfl
    have hclose : ((l.roll.act (.move .close)).manager) = l.manager.close := rfl
    rw [← hclose, Roll.act_close h.numbered]
    show (l.run (closing now l.manager)).roll.manager = _
    rw [roll_run htriggers, hacts]
    rfl

/-! ## After closing -/

/-- **Nothing happens after closing.** -/
theorem quiet_after_close (config : SavingConfig) {before closing later : List (Happened α)}
    (hbefore : ∀ e ∈ before, e.what.isDirect = false)
    (hclosing : ((start config).run before).Closes closing)
    (hlater : ∀ e ∈ later, e.what.asks = false) :
    ((start config).run (before ++ closing)).seen later = [] ∧
      ((start config).run (before ++ closing ++ later)).calls =
        ((start config).run (before ++ closing)).calls ∧
      ((start config).run (before ++ closing ++ later)).manager.window = none ∧
      ((start config).run (before ++ closing ++ later)).manager.isSaving = false := by
  have hkept : ∀ trace, ((start config : Loop α).run trace).roll.Kept :=
    kept_run (l := start config) (Roll.kept_start config)
  have hclosed := hclosing.silent (hkept before)
    (tracked_run (l := start config) (by intro s hs; cases hs) hbefore)
  rw [← run_append] at hclosed
  obtain ⟨hsilent, hseen, hcalls⟩ := hclosed.run hlater
  rw [← run_append] at hsilent hcalls
  exact ⟨hseen, hcalls, hsilent.window, hsilent.isSaving (hkept _)⟩

/-- A save waits for its response, another one has not started yet, and a window is open. -/
def eventful : List (Happened String) :=
  [⟨0, .schedule "1"⟩, ⟨1000, .windowEnds some⟩, ⟨1000, .goesOn 0 ⟨some 3000, .failed "down"⟩⟩,
    ⟨1500, .schedule "2"⟩, ⟨2500, .windowEnds some⟩, ⟨2500, .schedule "3"⟩]

/-- A close during which a flush is begun. -/
def eventfulClose : List (Happened String) :=
  ⟨2500, .aclose⟩ :: [⟨2500, .flush some⟩, ⟨2600, .cancelled 1⟩, ⟨2600, .cancelled 0⟩] ++
    [⟨2600, .disconnected⟩]

/-- The response arrives, and the window would have ended. -/
def eventfulRest : List (Happened String) :=
  [⟨3500, .windowEnds some⟩, ⟨4000, .goesOn 0 .done⟩, ⟨4000, .goesOn 1 .done⟩]

theorem quiet_after_eventful :
    (∀ e ∈ eventful, e.what.isDirect = false) ∧
      ((start {}).run eventful).Closes eventfulClose ∧
      (∀ e ∈ eventfulRest, e.what.asks = false) ∧
      ((start {}).run (eventful ++ eventfulClose)).seen eventfulRest = [] ∧
      ((start {}).run (eventful ++ eventfulClose ++ eventfulRest)).calls =
        ((start {}).run (eventful ++ eventfulClose)).calls ∧
      ((start {}).run (eventful ++ eventfulClose ++ eventfulRest)).manager.window = none ∧
      ((start {}).run (eventful ++ eventfulClose ++ eventfulRest)).manager.isSaving = false := by
  have hbefore : ∀ e ∈ eventful, e.what.isDirect = false := by simp [eventful, Happening.isDirect]
  have hlater : ∀ e ∈ eventfulRest, e.what.asks = false := by simp [eventfulRest, Happening.asks]
  have hclosing : ((start {}).run eventful).Closes eventfulClose := by
    refine ⟨2500, _, 2600, rfl, by simp [Happening.asks], fun s hs _ => ⟨none, ?_⟩⟩
    have hnumbers : ((start {}).run eventful).manager.saves.map Save.number = [0, 1] := rfl
    have hnumber := hnumbers ▸ List.mem_map_of_mem hs
    have hended : (((start {}).run eventful).run (⟨2500, .aclose⟩ ::
        [⟨2500, .flush some⟩, ⟨2600, .cancelled 1⟩, ⟨2600, .cancelled 0⟩])).roll.ended =
          [(1, none), (0, none)] := rfl
    rw [hended]
    simp only [List.mem_cons, List.not_mem_nil, or_false] at hnumber
    rcases hnumber with h | h <;> simp [h]
  exact ⟨hbefore, hclosing, hlater, quiet_after_close {} hbefore hclosing hlater⟩

end Loop

end Spreadsheet
