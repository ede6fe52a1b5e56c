import Spreadsheet.Proofs.Saving.Loop

/-!
# Flushes

A flush waits for the saves that windows have started and that have not ended when it is begun. It
hears of every save that ends, whatever else happens in the loop meanwhile, and returns when none is
left; a save that breaks off or is cancelled breaks the flush off.

**Main statements.** All saves for which a flush was begun have ended when it returns, in a running
loop (`Loop.flushes_run`) and on a timeline (`Timeline.flush_returns`).
-/

namespace Spreadsheet

variable {α : Type}

open Manager

/-- The saves for which a flush was begun have ended, but for those that it still waits for. -/
def Flush.Sound (numbers : List Nat) (r : Roll α) : Flush → Prop
  | .waits left => ∀ number ∈ numbers, number ∈ left ∨ r.HasEnded number
  | .returned => ∀ number ∈ numbers, r.HasEnded number
  | .raised => True

namespace Flush

variable {f : Flush} {numbers left : List Nat} {r : Roll α} {e : Nat × Option SaveEnd}

theorem sound_begin (h : ∀ number ∈ numbers, number ∈ left ∨ r.HasEnded number) :
    (begin left).Sound numbers r := by
  cases left with
  | nil => exact fun number hnumber => (h number hnumber).resolve_left List.not_mem_nil
  | cons number left => exact h

theorem Sound.hear (h : f.Sound numbers r) (he : e ∈ r.ended) : (f.hear e).Sound numbers r := by
  cases f with
  | returned => exact h
  | raised => trivial
  | waits left =>
    have hleft : ∀ number ∈ numbers,
        number ∈ left.filter (fun number => number != e.1) ∨ r.HasEnded number := by
      intro number hnumber
      by_cases heq : number = e.1
      · exact .inr ⟨e.2, heq ▸ he⟩
      · exact (h number hnumber).imp_left fun hmem => List.mem_filter.2 ⟨hmem, by simpa using heq⟩
    unfold Flush.hear
    dsimp only
    split
    · split
      · trivial
      · trivial
      · exact sound_begin hleft
    · exact h

theorem Sound.mono {r' : Roll α} (h : f.Sound numbers r) (hsub : r.ended ⊆ r'.ended) :
    f.Sound numbers r' := by
  have hended : ∀ number, r.HasEnded number → r'.HasEnded number :=
    fun number => Exists.imp fun how hmem => hsub hmem
  cases f with
  | returned => exact fun number hnumber => hended number (h number hnumber)
  | raised => trivial
  | waits left => exact fun number hnumber => (h number hnumber).imp_right (hended number)

theorem Sound.foldl (h : f.Sound numbers r) {es : List (Nat × Option SaveEnd)}
    (hes : es ⊆ r.ended) : (es.foldl Flush.hear f).Sound numbers r := by
  induction es generalizing f with
  | nil => exact h
  | cons e es ih =>
    rw [List.cons_subset] at hes
    exact ih (h.hear hes.1) hes.2

end Flush

namespace Loop

variable {l : Loop α} {e : Happened α} {trace : List (Happened α)}

theorem ended_act (r : Roll α) (a : Act α) : r.ended <+: (r.act a).ended := by
  cases a with
  | move v => exact List.prefix_append _ _
  | cancel number =>
    rw [Roll.act]
    split
    · exact List.prefix_rfl
    · exact List.prefix_append _ _
  | disconnect => exact List.prefix_rfl

/-- A flush that hears of the saves that end waits for none of those that have ended. -/
theorem sound_after {f : Flush} {numbers : List Nat} {i : Nat}
    (hf : (l.flushes ++ begunBy (l.after e).manager e)[i]? = some f)
    (h : f.Sound numbers (l.after e).roll) :
    ∃ f', (l.after e).flushes[i]? = some f' ∧ f'.Sound numbers (l.after e).roll := by
  refine ⟨_, ?_, h.foldl (List.drop_subset l.roll.ended.length (l.after e).roll.ended)⟩
  show ((l.flushes ++ begunBy (l.after e).manager e).map _)[i]? = _
  rw [List.getElem?_map, hf]
  rfl

theorem sound_run {f : Flush} {numbers : List Nat} {i : Nat} (hf : l.flushes[i]? = some f)
    (h : f.Sound numbers l.roll) (later : List (Happened α)) :
    ∃ f', (l.run later).flushes[i]? = some f' ∧ f'.Sound numbers (l.run later).roll := by
  induction later generalizing l f with
  | nil => exact ⟨f, hf, h⟩
  | cons e later ih =>
    have hsub : l.roll.ended ⊆ (l.after e).roll.ended := (ended_act _ _).subset
    have hstill : (l.flushes ++ begunBy (l.after e).manager e)[i]? = some f := by
      obtain ⟨hi, -⟩ := List.getElem?_eq_some_iff.1 hf
      rw [List.getElem?_append_left hi, hf]
    obtain ⟨f', hf', h'⟩ := sound_after hstill (h.mono hsub)
    exact ih hf' h'

/-- A flush that is begun waits for all tracked saves that have not ended. -/
theorem sound_begun (l : Loop α) (now : Nat) (read : α → Option String) :
    ∃ f, (l.after ⟨now, .flush read⟩).flushes[l.flushes.length]? = some f ∧
      f.Sound (((l.after ⟨now, .flush read⟩).manager.saves.filter isTracked).map Save.number)
        (l.after ⟨now, .flush read⟩).roll := by
  refine sound_after ?_ (Flush.sound_begin fun _ hnumber => .inl hnumber)
  rw [List.getElem?_append_right (Nat.le_refl _), Nat.sub_self]
  rfl

/-- All tracked saves for which a flush was begun have ended when it has returned. -/
theorem flushes_run {config : SavingConfig} {before later : List (Happened α)} {now : Nat}
    {read : α → Option String}
    (h : ((start config).run (before ++ ⟨now, .flush read⟩ :: later)).flushes[
      ((start config).run before).flushes.length]? = some .returned) :
    ∀ s ∈ ((start config).run (before ++ [⟨now, .flush read⟩])).manager.saves,
      isTracked s = true →
      ((start config).run (before ++ ⟨now, .flush read⟩ :: later)).roll.HasEnded s.number := by
  intro s hs htracked
  rw [run_append] at h hs ⊢
  obtain ⟨f, hf, hbegun⟩ := sound_begun ((start config).run before) now read
  obtain ⟨f', hf', hended⟩ := sound_run hf hbegun later
  obtain rfl : f' = .returned := Option.some.inj (hf'.symm.trans h)
  exact hended s.number (List.mem_map_of_mem (List.mem_filter.2 ⟨hs, htracked⟩))

end Loop

/-! ## Timelines -/

namespace Timeline

variable {σ : Type} [Saver σ α] {t : Timeline σ} {place number : Nat} {numbers : List Nat}

theorem run_of_none {go : Timeline σ → Nat → Bool} (h : t.next? = none) : t.run go = t := by
  rw [run]
  split
  · rfl
  · rename_i hsome
    rw [h] at hsome
    cases hsome

theorem run_of_some {go : Timeline σ → Nat → Bool} {due : Nat} {turn : Turn}
    (h : t.next? = some (due, place, turn)) :
    t.run go = if go t due then (t.play due place turn).run go else t := by
  rw [run]
  split
  · rename_i hnone
    rw [h] at hnone
    cases hnone
  · rename_i hsome
    rw [h] at hsome
    cases hsome
    rfl

/-- What every turn preserves holds after a run, which stops because no turn is left or because its
condition fails. -/
theorem run_induction {p : Timeline σ → Prop} (go : Timeline σ → Nat → Bool)
    (hplay : ∀ t due place turn, t.next? = some (due, place, turn) → p t →
      p (t.play due place turn)) (h : p t) :
    p (t.run go) ∧ ((t.run go).next? = none ∨ ∃ due, go (t.run go) due = false) := by
  induction t using Timeline.run.induct go with
  | case1 t hnone =>
    rw [run_of_none hnone]
    exact ⟨h, .inl hnone⟩
  | case2 t due place turn hnext hgo ih =>
    rw [run_of_some hnext, if_pos hgo]
    exact ih (hplay t due place turn hnext h)
  | case3 t due place turn hnext hstop =>
    rw [run_of_some hnext, if_neg hstop]
    exact ⟨h, .inr ⟨due, Bool.eq_false_iff.2 hstop⟩⟩

/-- The saves with some numbers are suspended or have ended. -/
def Accounts (place : Nat) (numbers : List Nat) (t : Timeline σ) : Prop :=
  ∃ saver, t.savers[place]? = some saver ∧ ∀ number ∈ numbers,
    (∃ s ∈ (Saver.manager saver).saves, s.number = number) ∨ (t.end? place number).isSome

theorem end?_mono {t t' : Timeline σ} (h : t.ended <+: t'.ended)
    (hend : (t.end? place number).isSome) : (t'.end? place number).isSome := by
  obtain ⟨new, hnew⟩ := h
  rw [end?, ← hnew, List.find?_append, Option.isSome_map, Option.isSome_or]
  rw [end?, Option.isSome_map] at hend
  rw [hend, Bool.true_or]

theorem end?_of_mem {how : SaveEnd} (h : (place, number, how) ∈ t.ended) :
    (t.end? place number).isSome := by
  rw [end?, Option.isSome_map, List.find?_isSome]
  exact ⟨_, h, by simp⟩

/-- No save is lost in a step. -/
def Keeps (m : Manager α) (step : Step α) : Prop :=
  ∀ s ∈ m.saves, (∃ s' ∈ step.manager.saves, s'.number = s.number) ∨
    ∃ how, step.ended = some (s.number, how)

theorem keeps_fire (m : Manager α) (now : Nat) (read : α → Option String) :
    Keeps m (m.fire now read) := by
  refine fun s hs => .inl ⟨s, ?_, rfl⟩
  have hfires := m.fires_fire now read
  generalize m.fire now read = step at hfires ⊢
  cases hfires with
  | closed => exact hs
  | saves => exact List.mem_append_left _ hs
  | skips => exact hs

theorem keeps_resume {m : Manager α} {s : Save} (now : Nat) (reply : Reply) :
    Keeps m (m.resume now s reply) := by
  intro u hu
  have ho := (goes_resume m now s reply).outcome
  generalize (m.resume now s reply).ended = ended at ho ⊢
  by_cases hnumber : u.number = s.number
  · cases ho with
    | stays _ hsaves _ =>
      rw [hsaves]
      exact .inl ⟨_, List.mem_append_right _ (List.mem_singleton_self _), hnumber.symm⟩
    | ends => exact .inr ⟨_, by rw [hnumber]⟩
  · have hother : u ∈ m.others s := mem_others.2 ⟨hu, hnumber⟩
    rw [← others_started m s s] at hother
    refine .inl ⟨u, ?_, rfl⟩
    cases ho with
    | stays _ hsaves _ => exact hsaves ▸ List.mem_append_left _ hother
    | ends hsaves _ => exact hsaves ▸ hother

theorem Accounts.apply {place' : Nat} {saver' : σ} {step : Step α}
    (h : t.Accounts place numbers) (hsaver' : t.savers[place']? = some saver')
    (hkeeps : Keeps (Saver.manager saver') step) :
    (t.apply place' saver' step).Accounts place numbers := by
  obtain ⟨saver, hsaver, hnumbers⟩ := h
  have hmono : ∀ number, (t.end? place number).isSome →
      ((t.apply place' saver' step).end? place number).isSome :=
    fun number => end?_mono (List.prefix_append _ _)
  by_cases hplace : place' = place
  · subst hplace
    obtain rfl := Option.some.inj (hsaver.symm.trans hsaver')
    obtain ⟨hlt, -⟩ := List.getElem?_eq_some_iff.1 hsaver
    refine ⟨Saver.setManager saver step.manager, List.getElem?_set_self hlt, ?_⟩
    rw [Saver.manager_setManager]
    intro number hnumber
    rcases hnumbers number hnumber with ⟨s, hs, rfl⟩ | hend
    · refine (hkeeps s hs).imp_right ?_
      rintro ⟨how, hended⟩
      have hmem : (place', s.number, how) ∈ (t.apply place' saver step).ended :=
        List.mem_append_right _ (by simp [hended])
      exact end?_of_mem hmem
    · exact .inr (hmono number hend)
  · refine ⟨saver, (List.getElem?_set_ne hplace).trans hsaver, fun number hnumber => ?_⟩
    exact (hnumbers number hnumber).imp_right (hmono number)

theorem Accounts.play {due place' : Nat} {turn : Turn}
    (h : t.Accounts place numbers) : (t.play due place' turn).Accounts place numbers := by
  unfold Timeline.play
  cases hsaver' : t.savers[place']? with
  | none => exact h
  | some saver' =>
    cases turn with
    | none =>
      have hnow : ({ t with now := max t.now due } : Timeline σ).Accounts place numbers := h
      exact hnow.apply hsaver' (keeps_fire _ _ _)
    | some s =>
      have hnow : ({ t with
          now := max t.now due
          script := if (Saver.manager saver').sends s then t.script.tail else t.script } :
          Timeline σ).Accounts place numbers := h
      exact hnow.apply hsaver' (keeps_resume _ _)

/-- A timeline on which the window of a saver is ended now. -/
def fired (t : Timeline σ) (place : Nat) : Timeline σ :=
  match t.savers[place]? with
  | none => t
  | some s => t.apply place s ((Saver.manager s).fire t.now (Saver.read s))

/-- A flush goes on: none of the saves that it waits for has broken off, and one has not ended. -/
def awaits (place : Nat) (awaited : List Nat) (t : Timeline σ) (_ : Nat) : Bool :=
  (t.fault? place awaited).isNone && awaited.any fun number => (t.end? place number).isNone

theorem flush_eq (t : Timeline σ) (place : Nat) :
    t.flush place =
      ((t.fired place).run (awaits place ((t.fired place).tracked place)),
        ((t.fired place).run (awaits place ((t.fired place).tracked place))).fault? place
          ((t.fired place).tracked place)) :=
  rfl

/-- Nothing is suspended on a timeline on which no turn is left. -/
theorem saves_of_next?_eq_none {saver : σ} (h : t.next? = none)
    (hsaver : t.savers[place]? = some saver) : (Saver.manager saver).saves = [] := by
  rw [List.eq_nil_iff_forall_not_mem]
  intro s hs
  have hturn : (s.due, place, some s) ∈ t.turns := by
    refine List.mem_flatMap.2 ⟨(saver, place), List.mem_zipIdx_iff_getElem?.2 hsaver, ?_⟩
    refine List.mem_map.2 ⟨(s.due, some s), ?_, rfl⟩
    exact List.mem_append_right _ (List.mem_map_of_mem hs)
  rw [earliest?_eq_none h] at hturn
  cases hturn

/-- **A flush returns only after all saves that it waits for have ended.** -/
theorem flush_returns (t : Timeline σ) (place : Nat) (h : (t.flush place).2 = none) :
    ∀ number ∈ (t.fired place).tracked place, ((t.flush place).1.end? place number).isSome := by
  rw [flush_eq] at h ⊢
  generalize hawaited : (t.fired place).tracked place = awaited at h ⊢
  cases hsaver : (t.fired place).savers[place]? with
  | none =>
    rw [tracked, hsaver] at hawaited
    subst hawaited
    nofun
  | some saver =>
    have haccounts : (t.fired place).Accounts place awaited := by
      refine ⟨saver, hsaver, fun number hnumber => .inl ?_⟩
      rw [← hawaited, tracked, hsaver] at hnumber
      obtain ⟨s, hs, rfl⟩ := List.mem_map.1 hnumber
      exact ⟨s, (List.mem_filter.1 hs).1, rfl⟩
    obtain ⟨⟨saver', hsaver', hnumbers⟩, hstop⟩ :=
      run_induction (awaits place awaited) (fun _ _ _ _ _ hu => hu.play) haccounts
    intro number hnumber
    rcases hstop with hnone | ⟨due, hstop⟩
    · refine (hnumbers number hnumber).resolve_left ?_
      rintro ⟨s, hs, -⟩
      rw [saves_of_next?_eq_none hnone hsaver'] at hs
      cases hs
    · dsimp only at h
      rw [awaits, h, Option.isNone_none, Bool.true_and, List.any_eq_false] at hstop
      exact Option.isSome_iff_ne_none.2 (by simpa using hstop number hnumber)

end Timeline

end Spreadsheet
