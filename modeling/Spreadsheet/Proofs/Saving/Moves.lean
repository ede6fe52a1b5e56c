import Mathlib.Data.List.Nodup
import Spreadsheet.Proofs.Saving.Steps

/-!
# Runs of a manager

A manager is moved by calls, by the end of its window, and by saves that go on. A run is any list
of moves, so it covers every interleaving of saves, every reply and every delay; the turns of a
timeline are moves (`exists_move_of_next?`).

**Main facts.** A window that ends saves its text, skips it or does nothing (`fires_fire`). In every
run the saves have numbers of their own (`Numbered.run`), no move lowers the generation
(`generation_le_move`), and a save that has started keeps its generation (`mem_move`).
-/

namespace Spreadsheet

variable {α : Type}

namespace Manager

/-- What happens to a manager next. -/
inductive Move (α : Type) where
  | schedule (now : Nat) (source : α)
  | cancelPending
  | create (now : Nat) (ticket : Option Nat) (data : String)
  /-- The window ends. -/
  | fire (now : Nat) (read : α → Option String)
  /-- The save with a number goes on. If it sends a request, this is the reply. -/
  | resume (now number : Nat) (reply : Reply)
  | close

/-- A manager to which nothing has happened. -/
def start (config : SavingConfig) : Manager α := { config := config }

/-- The save with a number, if it has not ended. -/
def find? (m : Manager α) (number : Nat) : Option Save := m.saves.find? fun s => s.number == number

/-- A move. A save that has ended does not go on. -/
def move (m : Manager α) : Move α → Step α
  | .schedule now source => { manager := m.schedule now source }
  | .cancelPending => { manager := m.cancelPending }
  | .create now ticket data => { manager := m.create now ticket data }
  | .fire now read => m.fire now read
  | .resume now number reply =>
    match m.find? number with
    | none => { manager := m }
    | some s => m.resume now s reply
  | .close => { manager := m.close }

/-- The manager after moves in order. -/
def run (m : Manager α) (moves : List (Move α)) : Manager α :=
  moves.foldl (fun m v => (m.move v).manager) m

variable {m : Manager α} {s t : Save} {number : Nat}

theorem run_append (m : Manager α) (before later : List (Move α)) :
    m.run (before ++ later) = (m.run before).run later :=
  List.foldl_append

/-- What every move preserves holds after every run. -/
theorem run_induction {p : Manager α → Prop} (hm : p m)
    (hmove : ∀ n v, p n → p (Manager.move n v).manager) (moves : List (Move α)) :
    p (m.run moves) := by
  induction moves generalizing m with
  | nil => exact hm
  | cons v moves ih => exact ih (hmove m v hm)

theorem mem_of_find? (h : m.find? number = some s) : s ∈ m.saves ∧ s.number = number := by
  unfold find? at h
  exact ⟨List.mem_of_find?_eq_some h, by simpa using List.find?_some h⟩

theorem mem_others : t ∈ m.others s ↔ t ∈ m.saves ∧ t.number ≠ s.number := by
  simp [others]

/-- A move of a save is a step of that save, or nothing. -/
theorem move_resume_cases (m : Manager α) (now number : Nat) (reply : Reply) :
    m.move (.resume now number reply) = { manager := m } ∨
      ∃ s ∈ m.saves, s.number = number ∧
        m.move (.resume now number reply) = m.resume now s reply := by
  cases hfind : m.find? number with
  | none => exact .inl (by simp only [move, hfind])
  | some s =>
    obtain ⟨hmem, hnumber⟩ := mem_of_find? hfind
    exact .inr ⟨s, hmem, hnumber, by simp only [move, hfind]⟩

/-- All that can become of a manager when its window ends: there is none, or the text in the source
is saved, or there is no text. -/
inductive Fires (m : Manager α) (now : Nat) (read : α → Option String) : Step α → Prop
  | closed : m.window = none → m.Fires now read { manager := m }
  | saves {w : Window α} {data : String} : m.window = some w → read w.source = some data →
      m.Fires now read { manager := m.cancelPending.create now none data }
  | skips {w : Window α} : m.window = some w → read w.source = none →
      m.Fires now read
        { manager := m.cancelPending
          effects := [.log ⟨.info, "Remote save skipped: grid has errors"⟩] }

theorem fires_fire (m : Manager α) (now : Nat) (read : α → Option String) :
    m.Fires now read (m.fire now read) := by
  unfold fire
  split
  · rename_i hw
    exact .closed hw
  · rename_i w hw
    split
    · rename_i data hdata
      exact .saves hw hdata
    · rename_i hnone
      exact .skips hw hnone

theorem ended_fire (m : Manager α) (now : Nat) (read : α → Option String) :
    (m.fire now read).ended = none := by
  have hfires := m.fires_fire now read
  generalize m.fire now read = step at hfires ⊢
  cases hfires <;> rfl

/-- Neither a reply nor a retry counts: a save that goes on leaves the window as it was. -/
theorem window_resume (m : Manager α) (now number : Nat) (reply : Reply) :
    (m.move (.resume now number reply)).manager.window = m.window := by
  rcases m.move_resume_cases now number reply with heq | ⟨s, -, -, heq⟩
  · rw [heq]
  · rw [heq, (goes_resume m now s reply).window, window_started]

/-- A save that goes on creates no other. -/
theorem created_resume (m : Manager α) (now number : Nat) (reply : Reply) :
    (m.move (.resume now number reply)).manager.created = m.created := by
  rcases m.move_resume_cases now number reply with heq | ⟨s, -, -, heq⟩
  · rw [heq]
  · rw [heq, (goes_resume m now s reply).created, created_started]

/-- Saves have numbers of their own, and all of these were given out. -/
structure Numbered (m : Manager α) : Prop where
  nodup : (m.saves.map Save.number).Nodup
  lt : ∀ s ∈ m.saves, s.number < m.created

theorem numbered_start (config : SavingConfig) : (start config : Manager α).Numbered :=
  ⟨List.nodup_nil, by simp [start]⟩

theorem Numbered.eq (h : m.Numbered) (hs : s ∈ m.saves) (ht : t ∈ m.saves)
    (hnumber : s.number = t.number) : s = t :=
  List.inj_on_of_nodup_map h.nodup hs ht hnumber

/-- A save is one of the others, or it is the same. -/
theorem Numbered.mem_saves (h : m.Numbered) (hs : s ∈ m.saves) :
    t ∈ m.saves ↔ t ∈ m.others s ∨ t = s := by
  rw [mem_others]
  constructor
  · intro ht
    by_cases hnumber : t.number = s.number
    · exact .inr (h.eq ht hs hnumber)
    · exact .inl ⟨ht, hnumber⟩
  · rintro (⟨ht, -⟩ | rfl)
    · exact ht
    · exact hs

theorem Numbered.find? (h : m.Numbered) (hs : s ∈ m.saves) : m.find? s.number = some s := by
  cases hfind : m.find? s.number with
  | none =>
    unfold Manager.find? at hfind
    exact absurd (List.find?_eq_none.1 hfind s hs) (by simp)
  | some t =>
    obtain ⟨ht, hnumber⟩ := mem_of_find? hfind
    rw [h.eq ht hs hnumber]

theorem Numbered.of_sublist {n : Manager α} (h : m.Numbered) (hs : n.saves.Sublist m.saves)
    (hc : n.created = m.created) : n.Numbered :=
  ⟨h.nodup.sublist (hs.map _), fun s hmem => hc ▸ h.lt s (hs.subset hmem)⟩

theorem Numbered.create (h : m.Numbered) (now : Nat) (ticket : Option Nat) (data : String) :
    (m.create now ticket data).Numbered := by
  refine ⟨?_, fun s hs => ?_⟩
  · show ((m.saves ++ [_]).map Save.number).Nodup
    rw [List.map_append, List.nodup_append]
    refine ⟨h.nodup, List.nodup_singleton _, fun x hx y hy => ?_⟩
    obtain ⟨s, hs, rfl⟩ := List.mem_map.1 hx
    obtain rfl := List.mem_singleton.1 hy
    exact Nat.ne_of_lt (h.lt s hs)
  · rcases List.mem_append.1 hs with hs | hs
    · exact Nat.lt_succ_of_lt (h.lt s hs)
    · rw [List.mem_singleton.1 hs]
      exact Nat.lt_succ_self _

theorem Numbered.fire (h : m.Numbered) (now : Nat) (read : α → Option String) :
    (m.fire now read).manager.Numbered := by
  have hcancel : m.cancelPending.Numbered := ⟨h.nodup, h.lt⟩
  have hfires := m.fires_fire now read
  generalize m.fire now read = step at hfires ⊢
  cases hfires with
  | closed => exact h
  | saves => exact hcancel.create now none _
  | skips => exact hcancel

theorem Numbered.suspend (h : m.Numbered) (hs : s ∈ m.saves) (stage : Stage) (due : Nat) :
    (m.suspend s stage due).Numbered := by
  have hsub : (m.others s).Sublist m.saves := List.filter_sublist
  refine ⟨?_, fun u hu => ?_⟩
  · show ((m.others s ++ [_]).map Save.number).Nodup
    rw [List.map_append, List.nodup_append]
    refine ⟨h.nodup.sublist (hsub.map _), List.nodup_singleton _, fun x hx y hy => ?_⟩
    obtain ⟨u, hu, rfl⟩ := List.mem_map.1 hx
    obtain rfl := List.mem_singleton.1 hy
    exact (mem_others.1 hu).2
  · rcases List.mem_append.1 hu with hu | hu
    · exact h.lt u (mem_others.1 hu).1
    · rw [List.mem_singleton.1 hu]
      exact h.lt s hs

theorem Numbered.resume (h : m.Numbered) (hs : s ∈ m.saves) (now : Nat) (reply : Reply) :
    (m.resume now s reply).manager.Numbered := by
  have hgoes := goes_resume m now s reply
  have hcreated : (m.resume now s reply).manager.created = m.created :=
    hgoes.created.trans (created_started m s)
  rcases hgoes.saves with heq | ⟨stage, due, -, heq⟩
  · rw [others_started] at heq
    have hsub : (m.others s).Sublist m.saves := List.filter_sublist
    exact h.of_sublist (heq ▸ hsub) hcreated
  · rw [others_started] at heq
    have hsub : (m.resume now s reply).manager.saves.Sublist (m.suspend s stage due).saves :=
      heq ▸ List.Sublist.refl _
    exact (h.suspend hs stage due).of_sublist hsub hcreated

theorem Numbered.move (h : m.Numbered) (v : Move α) : (m.move v).manager.Numbered := by
  cases v with
  | schedule now source => exact ⟨h.nodup, h.lt⟩
  | cancelPending => exact ⟨h.nodup, h.lt⟩
  | create now ticket data => exact h.create now ticket data
  | fire now read => exact h.fire now read
  | resume now number reply =>
    rcases move_resume_cases m now number reply with heq | ⟨s, hs, -, heq⟩
    · rw [heq]
      exact h
    · rw [heq]
      exact h.resume hs now reply
  | close => exact h.of_sublist List.filter_sublist rfl

theorem Numbered.run (h : m.Numbered) (moves : List (Move α)) : (m.run moves).Numbered :=
  run_induction h (fun _ v hn => hn.move v) moves

/-! ## Generations -/

/-- No move lowers the generation. -/
theorem generation_le_move (m : Manager α) (v : Move α) :
    m.generation ≤ (m.move v).manager.generation := by
  cases v with
  | schedule now source => exact Nat.le_refl _
  | cancelPending => exact Nat.le_refl _
  | create now ticket data => exact Nat.le_refl _
  | fire now read =>
    show m.generation ≤ (m.fire now read).manager.generation
    have hfires := m.fires_fire now read
    generalize m.fire now read = step at hfires ⊢
    cases hfires <;> exact Nat.le_refl _
  | resume now number reply =>
    rcases move_resume_cases m now number reply with heq | ⟨s, -, -, heq⟩
    · exact Nat.le_of_eq (by rw [heq])
    · rw [heq, (goes_resume m now s reply).generation]
      exact generation_le_started m s
  | close => exact Nat.le_refl _

theorem config_move (m : Manager α) (v : Move α) : (m.move v).manager.config = m.config := by
  cases v with
  | schedule now source => rfl
  | cancelPending => rfl
  | create now ticket data => rfl
  | fire now read =>
    show (m.fire now read).manager.config = m.config
    have hfires := m.fires_fire now read
    generalize m.fire now read = step at hfires ⊢
    cases hfires <;> rfl
  | resume now number reply =>
    rcases move_resume_cases m now number reply with heq | ⟨s, -, -, heq⟩
    · rw [heq]
    · rw [heq, (goes_resume m now s reply).config, config_started]
  | close => rfl

/-! ## Saves -/

theorem mem_create {now : Nat} {ticket : Option Nat} {data : String}
    (ht : t ∈ (m.create now ticket data).saves) :
    t ∈ m.saves ∨ t = ⟨m.created, ticket, data, .created, now⟩ :=
  (List.mem_append.1 ht).imp_right List.mem_singleton.1

/-- A save that is suspended after a window has ended was there before, or the window started it. -/
theorem mem_fire {now : Nat} {read : α → Option String}
    (ht : t ∈ (m.fire now read).manager.saves) :
    t ∈ m.saves ∨ m.window ≠ none ∧ t.stage = .created ∧ t.ticket = none ∧ t.number = m.created ∧
      (m.fire now read).manager.created = m.created + 1 := by
  have hfires := m.fires_fire now read
  generalize m.fire now read = step at hfires ht ⊢
  cases hfires with
  | closed => exact .inl ht
  | saves hw _ =>
    refine (mem_create ht).imp_right ?_
    rintro rfl
    exact ⟨by simp [hw], rfl, rfl, rfl, rfl⟩
  | skips => exact .inl ht

/-- A save that is suspended after one went on was there before, or it is this one, in another stage
of the same attempt's generation. -/
theorem mem_resume {now : Nat} {reply : Reply}
    (ht : t ∈ (m.move (.resume now number reply)).manager.saves) :
    t ∈ m.saves ∨ ∃ s ∈ m.saves, s.number = number ∧ t.number = s.number ∧ t.ticket = s.ticket ∧
      t.data = s.data ∧ Stage.generation? t.stage = some (m.attempt s).generation := by
  rcases m.move_resume_cases now number reply with heq | ⟨s, hs, hnumber, heq⟩
  · rw [heq] at ht
    exact .inl ht
  · rw [heq] at ht
    rcases (goes_resume m now s reply).saves with hsaves | ⟨stage, due, hstage, hsaves⟩
    · rw [hsaves, others_started] at ht
      exact .inl (mem_others.1 ht).1
    · rw [hsaves, others_started] at ht
      rcases List.mem_append.1 ht with ht | ht
      · exact .inl (mem_others.1 ht).1
      · obtain rfl := List.mem_singleton.1 ht
        exact .inr ⟨s, hs, hnumber, rfl, rfl, rfl, hstage⟩

/-- Where a save comes from that is suspended after a move: it was there before, or it was created,
or it went on and kept its generation. -/
theorem mem_move {v : Move α} (ht : t ∈ (m.move v).manager.saves) :
    t ∈ m.saves ∨
      (t.stage = .created ∧ t.number = m.created ∧
        (m.move v).manager.created = m.created + 1) ∨
      ∃ now reply, ∃ s ∈ m.saves, v = .resume now s.number reply ∧ t.number = s.number ∧
        t.data = s.data ∧ Stage.generation? t.stage = some (m.attempt s).generation := by
  cases v with
  | schedule now source => exact .inl ht
  | cancelPending => exact .inl ht
  | create now ticket data =>
    refine (mem_create ht).imp_right ?_
    rintro rfl
    exact .inl ⟨rfl, rfl, rfl⟩
  | fire now read =>
    refine (mem_fire ht).imp_right ?_
    rintro ⟨-, hstage, -, hnumber, hcreated⟩
    exact .inl ⟨hstage, hnumber, hcreated⟩
  | resume now number reply =>
    refine (mem_resume ht).imp_right ?_
    rintro ⟨s, hs, rfl, hnumber, -, hdata, hstage⟩
    exact .inr ⟨now, reply, s, hs, rfl, hnumber, hdata, hstage⟩
  | close => exact .inl ((List.mem_filter.1 ht).1)

end Manager

/-! ## Turns of a timeline -/

/-- Each turn of a timeline is a move of the saver whose turn it is: the end of its window, or a
save that goes on. -/
theorem Timeline.exists_move_of_next? {σ : Type} [Saver σ α] {t : Timeline σ} {due place : Nat}
    {turn : Timeline.Turn} (h : t.next? = some (due, place, turn))
    (hnumbered : ∀ saver ∈ t.savers, (Saver.manager saver).Numbered) :
    ∃ saver v, t.savers[place]? = some saver ∧
      (v = .fire (max t.now due) (Saver.read saver) ∨
        ∃ number, v = .resume (max t.now due) number (t.script.headD .done)) ∧
      (t.play due place turn).savers = t.savers.set place
        (Saver.setManager saver ((Saver.manager saver).move v).manager) ∧
      (t.play due place turn).events = t.events ++
        ((Saver.manager saver).move v).effects.map fun e => ⟨max t.now due, e⟩ := by
  obtain ⟨saver, hsaver, hturn⟩ := Timeline.mem_turnsOf_of_next? h
  unfold Timeline.play
  rw [hsaver]
  cases turn with
  | none =>
    exact ⟨saver, .fire (max t.now due) (Saver.read saver), rfl, .inl rfl, rfl, rfl⟩
  | some s =>
    have hs : s ∈ (Saver.manager saver).saves := by
      simp only [Timeline.turnsOf, List.mem_append, List.mem_map] at hturn
      rcases hturn with ⟨w, -, hw⟩ | ⟨u, hu, heq⟩
      · cases hw
      · cases heq
        exact hu
    have hmove : (Saver.manager saver).move
        (.resume (max t.now due) s.number (t.script.headD .done)) =
          (Saver.manager saver).resume (max t.now due) s (t.script.headD .done) := by
      have hfind := (hnumbered saver (List.mem_of_getElem? hsaver)).find? hs
      simp only [Manager.move, hfind]
    refine ⟨saver, .resume (max t.now due) s.number (t.script.headD .done), rfl,
      .inr ⟨s.number, rfl⟩, ?_, ?_⟩
    · rw [hmove]
      rfl
    · rw [hmove]
      rfl

end Spreadsheet
