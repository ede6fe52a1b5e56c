import Spreadsheet.Saving.Work

/-!
# Saving in time

A clock in milliseconds, a server that replies by a script, and everyone who saves to it. The clock
moves only when nothing can go on at the present moment; then it jumps to the next moment at which
a window of quiet ends, a response arrives or a pause is over.

Running ends because each turn makes less the work that is left, including the script.
-/

namespace Spreadsheet

/-- Who saves by a manager, and finds the text for a source. -/
class Saver (σ : Type) (α : outParam Type) where
  manager : σ → Manager α
  setManager : σ → Manager α → σ
  read : σ → α → Option String
  manager_setManager : ∀ (s : σ) (m : Manager α), manager (setManager s m) = m

/-- A manager whose sources are the texts themselves. -/
instance : Saver (Manager (Option String)) (Option String) where
  manager m := m
  setManager _ m := m
  read _ text := text
  manager_setManager _ _ := rfl

/-- What could be seen, and when. -/
structure Event where
  time : Nat
  effect : Effect

/-- The clock, the replies left in the script, the savers, what could be seen so far, and the saves
that ended. -/
structure Timeline (σ : Type) where
  now : Nat := 0
  script : List Reply
  savers : List σ
  events : List Event := []
  /-- Each save that ended, by its saver and its number, and how. -/
  ended : List (Nat × Nat × SaveEnd) := []

namespace Timeline

variable {σ α : Type}

/-- Adds what can be seen now. -/
def emit (t : Timeline σ) (effects : List Effect) : Timeline σ :=
  { t with events := t.events ++ effects.map fun e => ⟨t.now, e⟩ }

/-! ## Turns -/

/-- What happens next to a manager: a save goes on, or without one its window ends. -/
abbrev Turn := Option Save

/-- The turns of a manager with their times. -/
def turnsOf (m : Manager α) : List (Nat × Turn) :=
  (m.window.toList.map fun w => (w.due, none)) ++ m.saves.map fun s => (s.due, some s)

/-- All turns with their times and the places of their savers. -/
def turns [Saver σ α] (t : Timeline σ) : List (Nat × Nat × Turn) :=
  t.savers.zipIdx.flatMap fun p =>
    (turnsOf (Saver.manager p.1)).map fun turn => (turn.1, p.2, turn.2)

/-- The first of the earliest. -/
def earliest? {β : Type} : List (Nat × β) → Option (Nat × β)
  | [] => none
  | x :: rest =>
    match earliest? rest with
    | none => some x
    | some y => if x.1 ≤ y.1 then some x else some y

theorem mem_of_earliest? {β : Type} {l : List (Nat × β)} {x : Nat × β}
    (h : earliest? l = some x) : x ∈ l := by
  induction l generalizing x with
  | nil => simp [earliest?] at h
  | cons y l ih =>
    simp only [earliest?] at h
    split at h
    · cases h; exact List.mem_cons_self
    · rename_i z hz
      split at h
      · cases h; exact List.mem_cons_self
      · cases h; exact List.mem_cons_of_mem _ (ih hz)

/-- The turn that comes next. -/
def next? [Saver σ α] (t : Timeline σ) : Option (Nat × Nat × Turn) := earliest? t.turns

/-- The timeline with a saver after a step. -/
def apply [Saver σ α] (t : Timeline σ) (place : Nat) (saver : σ) (step : Manager.Step α) :
    Timeline σ :=
  let t := t.emit step.effects
  { t with
    savers := t.savers.set place (Saver.setManager saver step.manager)
    ended := t.ended ++ step.ended.toList.map fun e => (place, e) }

/-- Plays a turn. -/
def play [Saver σ α] (t : Timeline σ) (due place : Nat) (turn : Turn) : Timeline σ :=
  match t.savers[place]? with
  | none => t
  | some saver =>
    let t := { t with now := max t.now due }
    let m := Saver.manager saver
    match turn with
    | none => t.apply place saver (m.fire t.now (Saver.read saver))
    | some s =>
      let step := m.resume t.now s (t.script.headD .done)
      let t := { t with script := if m.sends s then t.script.tail else t.script }
      t.apply place saver step

/-! ## The work left -/

/-- The weight of the script and of everyone's saves. -/
def work [Saver σ α] (t : Timeline σ) : Nat :=
  2 * t.script.length + total (fun s => (Saver.manager s).work) t.savers

/-- A turn comes from its saver. -/
theorem mem_turnsOf_of_next? [Saver σ α] {t : Timeline σ} {due place : Nat} {turn : Turn}
    (h : t.next? = some (due, place, turn)) :
    ∃ s, t.savers[place]? = some s ∧ (due, turn) ∈ turnsOf (Saver.manager s) := by
  have hmem := mem_of_earliest? h
  simp only [turns, List.mem_flatMap, List.mem_map] at hmem
  obtain ⟨⟨s, i⟩, hs, ⟨d, u⟩, hu, heq⟩ := hmem
  simp only [Prod.mk.injEq] at heq
  obtain ⟨rfl, rfl, rfl⟩ := heq
  exact ⟨s, by simpa using List.mem_zipIdx_iff_getElem?.1 hs, hu⟩

theorem work_play [Saver σ α] {t : Timeline σ} {due place : Nat} {turn : Turn}
    (h : t.next? = some (due, place, turn)) : (t.play due place turn).work < t.work := by
  obtain ⟨s, hs, hturn⟩ := mem_turnsOf_of_next? h
  have hset : ∀ m : Manager α,
      total (fun s => (Saver.manager s).work) (t.savers.set place (Saver.setManager s m)) +
          (Saver.manager s).work =
        total (fun s => (Saver.manager s).work) t.savers + m.work := by
    intro m
    rw [total_set_add hs, Saver.manager_setManager]
  simp only [turnsOf, List.mem_append, List.mem_map, Option.mem_toList] at hturn
  unfold play
  rw [hs]
  cases turn with
  | none =>
    have hw : (Saver.manager s).window.isSome := by
      rcases hturn with ⟨w, hw, -⟩ | ⟨u, -, hu⟩
      · simp [hw]
      · simp at hu
    have := Manager.work_fire (max t.now due) (Saver.read s) hw
    have := hset ((Saver.manager s).fire (max t.now due) (Saver.read s)).manager
    simp only [work, apply, emit]
    omega
  | some u =>
    have hu : u ∈ (Saver.manager s).saves := by
      rcases hturn with ⟨w, -, hw⟩ | ⟨v, hv, heq⟩
      · simp at hw
      · simp only [Prod.mk.injEq, Option.some.injEq] at heq
        exact heq.2 ▸ hv
    have := Manager.work_resume (max t.now due) t.script hu
    have := hset ((Saver.manager s).resume (max t.now due) u (t.script.headD .done)).manager
    simp only [work, apply, emit]
    omega

/-! ## Running -/

/-- Plays turns as long as a condition on the timeline and the time of the next turn holds. -/
def run [Saver σ α] (go : Timeline σ → Nat → Bool) (t : Timeline σ) : Timeline σ :=
  match _h : t.next? with
  | none => t
  | some (due, place, turn) =>
    if go t due then run go (t.play due place turn) else t
  termination_by t.work
  decreasing_by exact work_play _h

/-- Plays all turns up to a moment, the end included, and moves the clock there. -/
def runUntil [Saver σ α] (moment : Nat) (t : Timeline σ) : Timeline σ :=
  let t := t.run fun _ due => due ≤ moment
  { t with now := max t.now moment }

/-- Plays everything that can go on at the present moment. -/
def settle [Saver σ α] (t : Timeline σ) : Timeline σ := t.runUntil t.now

/-! ## Calls -/

/-- Changes the manager of a saver. -/
def modify [Saver σ α] (t : Timeline σ) (place : Nat) (f : Manager α → Manager α) : Timeline σ :=
  match t.savers[place]? with
  | none => t
  | some s =>
    { t with savers := t.savers.set place (Saver.setManager s (f (Saver.manager s))) }

/-- Puts a saver as it is after a call in its place, and adds what could be seen of the call. -/
def replace (t : Timeline σ) (place : Nat) (saver : σ) (effects : List Effect) : Timeline σ :=
  { t.emit effects with savers := t.savers.set place saver }

/-- Adds a saver at the end. -/
def join (t : Timeline σ) (saver : σ) : Timeline σ := { t with savers := t.savers ++ [saver] }

/-- The numbers of the saves that the windows of a saver started. -/
def tracked [Saver σ α] (t : Timeline σ) (place : Nat) : List Nat :=
  match t.savers[place]? with
  | none => []
  | some s => ((Saver.manager s).saves.filter Manager.isTracked).map Save.number

/-- How a save ended. -/
def end? (t : Timeline σ) (place number : Nat) : Option SaveEnd :=
  (t.ended.find? fun e => e.1 == place && e.2.1 == number).map fun e => e.2.2

/-- The first fault among saves of a saver. -/
def fault? (t : Timeline σ) (place : Nat) (numbers : List Nat) : Option SaveFault :=
  t.ended.findSome? fun e =>
    match e.2.2 with
    | .broken fault => if e.1 == place && numbers.contains e.2.1 then some fault else none
    | _ => none

/-- Ends the window of quiet now and runs until the saves that windows started have ended, or one
of them has broken off. -/
def flush [Saver σ α] (t : Timeline σ) (place : Nat) : Timeline σ × Option SaveFault :=
  let t := match t.savers[place]? with
    | none => t
    | some s => t.apply place s ((Saver.manager s).fire t.now (Saver.read s))
  let awaited := t.tracked place
  let t := t.run fun t _ =>
    (t.fault? place awaited).isNone && awaited.any fun number => (t.end? place number).isNone
  (t, t.fault? place awaited)

/-- Forgets what could be seen so far. -/
def clearEvents (t : Timeline σ) : Timeline σ := { t with events := [] }

end Timeline

end Spreadsheet
