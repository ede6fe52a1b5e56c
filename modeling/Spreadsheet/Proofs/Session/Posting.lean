import Mathlib.Data.List.Induction
import Spreadsheet.Proofs.Saving.Posts
import Spreadsheet.Proofs.Session.Pending

/-!
# What a session posts

The saves of a session are made at the ends of its windows of quiet, of the text that the sheet has
then, and go on whatever is done to the sheet afterwards.

**Theorem (`handedIn_of_posted`).** Every text that a session posts was handed to the client when a
window of quiet ended, earlier in the run.

A session is a manager that is moved by calls (`manager_call`), so what holds of every history of a
manager holds of the saves of a session (`exists_history`).
-/

namespace Spreadsheet

/-- A save posts no text but its own, however often it goes on. -/
theorem History.Inv.data_of_postOf? {α : Type} {h : History α} {s : Save} {p : Post} (h' : h.Inv)
    (hs : s ∈ h.manager.saves) (hp : h.manager.postOf? s = some p) : p.data = s.data := by
  rcases h'.postOf?_cases hs hp with ⟨-, rfl⟩ | ⟨g, data, k, hstage, rfl, -⟩
  · rfl
  · exact h'.data_of_posted hs hp hs (by rw [hstage]; rfl)

namespace Session

variable {s t : Session} {v : Move} {clock : Option Nat} {a : Address} {text data : String}

/-! ## What a call does to the saves -/

/-- The window of quiet was started, or nothing was done. -/
def Triggered (m n : Manager Unit) : Prop := n = m ∨ ∃ now, n = m.schedule now ()

theorem triggered_trigger (clock : Option Nat) (s : Session) :
    Triggered s.manager (s.trigger clock).session.manager := by
  rcases trigger_cases clock s with heq | ⟨now, heq⟩ <;> rw [heq]
  · exact .inl rfl
  · exact .inr ⟨now, rfl⟩

theorem triggered_commitAt (clock : Option Nat) (s : Session) (a : Address) (text : String) :
    Triggered s.manager (s.commitAt clock a text).session.manager := by
  have hmanager : (s.entered a text).sweep.1.persist.1.manager = s.manager := by
    rw [manager_persist, manager_sweep, manager_entered]
  rw [session_commitAt]
  split
  · rw [← hmanager]
    exact triggered_trigger clock _
  · exact .inl hmanager

theorem triggered_commit (clock : Option Nat) (s : Session) (address text : Option String) :
    Triggered s.manager (s.commit clock address text).session.manager := by
  rcases commit_cases clock s address text with ⟨e, -, heq⟩ | ⟨a, value, -, heq⟩
  · rw [heq]
    exact .inl rfl
  · rw [heq]
    exact triggered_commitAt clock s a value

theorem triggered_focusAt (clock : Option Nat) (s : Session) (a : Address) :
    Triggered s.manager (s.focusAt clock a).session.manager := by
  obtain ⟨-, -, hmanager, -⟩ := focusAt_session clock s a
  rw [hmanager]
  rcases left_cases clock s a with heq | ⟨e, -, heq⟩
  · rw [heq]
    exact .inl rfl
  · rw [heq]
    exact triggered_commitAt clock s e.address e.buffer

/-- A call triggers a save at most, or it closes the connection. It creates no save, and does
nothing to one but call it off. -/
theorem manager_call (clock : Option Nat) (s : Session) (c : Call) :
    Triggered s.manager (s.call clock c).manager ∨
      (s.call clock c).manager = s.manager.close := by
  cases c with
  | load =>
    rcases load_cases s with ⟨heq, -⟩ | ⟨-, -, -, -, -, -, hmanager⟩
    · exact .inl (.inl (by rw [call, heq]))
    · exact .inl (.inl hmanager)
  | focus address =>
    rcases focus_cases clock s address with heq | ⟨a, -, heq⟩
    · exact .inl (.inl (by rw [call, heq]))
    · exact .inl (by rw [call, heq]; exact triggered_focusAt clock s a)
  | edit address text =>
    rcases edit_cases clock s address text with heq | ⟨a, -, t, e, ht, heq⟩
    · exact .inl (.inl (by rw [call, heq]))
    · left
      rw [call, heq]
      rcases ht with ⟨-, rfl⟩ | ⟨-, rfl⟩
      · exact .inl rfl
      · exact triggered_focusAt clock s a
  | commit address text => exact .inl (triggered_commit clock s address text)
  | clear address => exact .inl (triggered_commit clock s (some address) (some ""))
  | reconcile =>
    rcases reconcile_cases s with heq | heq
    · exact .inl (.inl (by rw [call, heq]))
    · exact .inl (.inl (by rw [call, heq, manager_sweep]))
  | save =>
    rcases save_cases clock s with heq | heq
    · exact .inl (.inl (by rw [call, heq]))
    · exact .inl (by rw [call, heq]; exact triggered_trigger clock s)
  | dispose => exact .inr rfl

/-! ## Histories of a session -/

/-- A move of a session is at most one move of its manager. -/
theorem exists_manager_moves (s : Session) (v : Move) :
    ∃ moves, (s.move v).manager = s.manager.run moves := by
  cases v with
  | call clock c =>
    rcases manager_call clock s c with (heq | ⟨now, heq⟩) | heq
    · exact ⟨[], heq⟩
    · exact ⟨[.schedule now ()], heq⟩
    · exact ⟨[.close], heq⟩
  | fire now => exact ⟨[.fire now (Saver.read s)], rfl⟩
  | resume now number reply => exact ⟨[.resume now number reply], rfl⟩
  | rewrite store => exact ⟨[], rfl⟩

/-- The saves of a session have a history as those of every manager. -/
theorem exists_history (settings : Settings) (store : Store) (moves : List Move) :
    ∃ h : History Unit, h.Inv ∧ h.manager = ((ofStore settings store).run moves).manager := by
  refine run_induction (p := fun s => ∃ h : History Unit, h.Inv ∧ h.manager = s.manager) ?_ ?_ moves
  · exact ⟨History.start settings.saving, History.inv_start settings.saving, rfl⟩
  · rintro s v ⟨h, hinv, hmanager⟩
    obtain ⟨moves, hmoves⟩ := exists_manager_moves s v
    exact ⟨h.run moves, hinv.run moves, by rw [History.manager_run, hmanager, hmoves]⟩

/-! ## Where texts come from -/

/-- The text of a save was the text of a save before, or it is handed over by the move. -/
theorem data_of_mem_saves_move {u : Save} (hu : u ∈ (s.move v).manager.saves) :
    (∃ w ∈ s.manager.saves, u.data = w.data) ∨
      ∃ now, v = .fire now ∧ s.handed? (.fire now) = some u.data := by
  cases v with
  | call clock c =>
    left
    refine ⟨u, ?_, rfl⟩
    rcases manager_call clock s c with (heq | ⟨now, heq⟩) | heq
    · exact heq ▸ hu
    · rw [move, heq] at hu
      exact hu
    · rw [move, heq] at hu
      exact (List.mem_filter.1 hu).1
  | fire now =>
    rw [saves_fire] at hu
    rcases List.mem_append.1 hu with hu | hu
    · exact .inl ⟨u, hu, rfl⟩
    · obtain ⟨data, hdata, rfl⟩ := List.mem_map.1 hu
      exact .inr ⟨now, rfl, Option.mem_toList.1 hdata⟩
  | resume now number reply =>
    rcases Manager.mem_move (v := .resume now number reply) hu with
      hmem | ⟨-, -, hcreated⟩ | ⟨-, -, w, hw, -, -, hdata, -⟩
    · exact .inl ⟨u, hmem, rfl⟩
    · rcases s.manager.move_resume_cases now number reply with heq | ⟨w, -, -, heq⟩
      · rw [heq] at hcreated
        exact absurd hcreated (Nat.succ_ne_self _).symm
      · rw [heq, (Manager.goes_resume s.manager now w reply).created, Manager.created_started]
          at hcreated
        exact absurd hcreated (Nat.succ_ne_self _).symm
    · exact .inl ⟨w, hw, hdata⟩
  | rewrite store => exact .inl ⟨u, hu, rfl⟩

/-- A text was handed to the client at the end of a window of quiet in a run. -/
def HandedIn (s : Session) (moves : List Move) (data : String) : Prop :=
  ∃ before now later, moves = before ++ .fire now :: later ∧
    (s.run before).handed? (.fire now) = some data

theorem HandedIn.snoc {moves : List Move} (h : s.HandedIn moves data) (v : Move) :
    s.HandedIn (moves ++ [v]) data := by
  obtain ⟨before, now, later, rfl, hdata⟩ := h
  exact ⟨before, now, later ++ [v], by rw [List.append_assoc, List.cons_append], hdata⟩

/-- The texts of all saves in a session were handed over. The induction is on the end of the run. -/
theorem handedIn_of_mem_saves (settings : Settings) (store : Store) (moves : List Move) :
    ∀ u ∈ ((ofStore settings store).run moves).manager.saves,
      (ofStore settings store).HandedIn moves u.data := by
  induction moves using List.reverseRecOn with
  | nil => exact fun u hu => absurd hu List.not_mem_nil
  | append_singleton moves v ih =>
    intro u hu
    rw [run_append] at hu
    rcases data_of_mem_saves_move hu with ⟨w, hw, hdata⟩ | ⟨now, rfl, hdata⟩
    · rw [hdata]
      exact (ih w hw).snoc v
    · exact ⟨moves, now, [], rfl, hdata⟩

/-! ## Posts -/

/-- The texts that are posted in a move. Only saves that go on send requests. -/
def posted (s : Session) : Move → List String
  | .resume now number reply =>
    ((s.manager.move (.resume now number reply)).effects.filterMap Effect.request?).filterMap
      Request.data?
  | _ => []

/-- **What a session posts was handed over before.** -/
theorem handedIn_of_posted {settings : Settings} {store : Store} {moves : List Move}
    (h : data ∈ ((ofStore settings store).run moves).posted v) :
    (ofStore settings store).HandedIn moves data := by
  have hsaves := handedIn_of_mem_saves settings store moves
  obtain ⟨history, hinv, hmanager⟩ := exists_history settings store moves
  generalize (ofStore settings store).run moves = s at h hsaves hmanager
  cases v with
  | resume now number reply =>
    rw [posted, Manager.data_move, Option.mem_toList] at h
    obtain ⟨p, hp, rfl⟩ := Option.map_eq_some_iff.1 h
    obtain ⟨u, hfind, hpost⟩ := Option.bind_eq_some_iff.1 hp
    have hu := (Manager.mem_of_find? hfind).1
    rw [← hmanager] at hpost
    rw [hinv.data_of_postOf? (hmanager ▸ hu) hpost]
    exact hsaves u hu
  | call clock c => exact absurd h List.not_mem_nil
  | fire now => exact absurd h List.not_mem_nil
  | rewrite store => exact absurd h List.not_mem_nil

end Session

end Spreadsheet
