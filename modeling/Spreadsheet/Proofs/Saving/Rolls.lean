import Spreadsheet.Proofs.Saving.Moves

/-!
# The roll of saves

Closing a manager takes time: first the window is closed, then each save that a window started is
cancelled where it is suspended, then the connection is closed. Other moves may come between any two
of these (`Act`).

A roll keeps, along with a manager, which saves have started, with the generations that they took,
and which saves have ended.

**Theorem (`isSaving_tells_truth`).** After all acts in any order, the flag that a save is running is
set exactly if the save that took the latest generation has not ended, and each save that started
took a later generation than all before. Every act preserves what the saves on the roll have to do
with the suspended ones (`Kept.act`): a suspended save is in the generation that it took, and the
saves that are suspended no more have ended.
-/

namespace Spreadsheet

variable {α : Type}

namespace Manager

/-! ## Closing in time -/

/-- The manager without a save that was cancelled. If the save had started, it clears the flag as
every save does that ends. -/
def cancelled (m : Manager α) (s : Save) : Manager α :=
  match Stage.generation? s.stage with
  | none => { m with saves := m.others s }
  | some generation => m.retire s generation

/-- What happens to a manager, which may be closing. -/
inductive Act (α : Type) where
  | move (v : Move α)
  /-- The save with a number is cancelled. -/
  | cancel (number : Nat)
  /-- The connection is closed. -/
  | disconnect

/-! ## What a step comes to -/

variable {m n : Manager α} {s t : Save} {generation : Nat} {ended : Option (Nat × SaveEnd)}

/-- A save of a generation stays suspended, or it ends and clears the flag if it is the latest. -/
inductive Outcome (m : Manager α) (s : Save) (generation : Nat) (n : Manager α) :
    Option (Nat × SaveEnd) → Prop
  | stays {stage : Stage} {due : Nat} : Stage.generation? stage = some generation →
      n.saves = m.others s ++ [{ s with stage := stage, due := due }] →
      n.isSaving = m.isSaving → m.Outcome s generation n none
  | ends {how : SaveEnd} : n.saves = m.others s →
      n.isSaving = (m.retire s generation).isSaving →
      m.Outcome s generation n (some (s.number, how))

theorem Goes.outcome {a : Attempt} {answer : Option (Except RemoteError Answer)}
    (h : m.Goes s a answer n ended) : m.Outcome s a.generation n ended := by
  cases h with
  | waits => exact .stays rfl rfl rfl
  | asks => exact .stays rfl rfl rfl
  | retries => exact .stays rfl rfl rfl
  | completes => exact .ends rfl rfl
  | comesLate => exact .ends rfl rfl
  | givesUp => exact .ends rfl rfl
  | breaks => exact .ends rfl rfl

end Manager

open Manager

/-- A manager and what became of its saves. -/
structure Roll (α : Type) where
  manager : Manager α
  /-- The saves that have started and the generations that they took, in order. -/
  started : List (Nat × Nat) := []
  /-- The saves that have ended, and how, or nothing if they were cancelled. -/
  ended : List (Nat × Option SaveEnd) := []

namespace Roll

/-- The roll of a manager to which nothing has happened. -/
def start (config : SavingConfig) : Roll α := { manager := Manager.start config }

/-- The save that a move starts: one that goes on for the first time. -/
def starts (m : Manager α) : Move α → List Nat
  | .resume _ number _ =>
    (m.find? number).toList.filterMap fun s =>
      match s.stage with
      | .created => some number
      | _ => none
  | _ => []

/-- The saves that a move ends. -/
def ends (m : Manager α) : Move α → List (Nat × Option SaveEnd)
  | .close => (m.saves.filter isTracked).map fun s => (s.number, none)
  | v => (m.move v).ended.toList.map fun e => (e.1, some e.2)

/-- The roll after an act. A save that starts has taken the generation that is the latest then. -/
def act (r : Roll α) : Act α → Roll α
  | .move v =>
    let m := (r.manager.move v).manager
    { manager := m
      started := r.started ++ (starts r.manager v).map fun number => (number, m.generation)
      ended := r.ended ++ ends r.manager v }
  | .cancel number =>
    match r.manager.find? number with
    | none => r
    | some s =>
      { r with manager := r.manager.cancelled s, ended := r.ended ++ [(number, none)] }
  | .disconnect => { r with manager := { r.manager with closed := true } }

/-- The roll after acts in order. -/
def run (r : Roll α) (acts : List (Act α)) : Roll α := acts.foldl act r

/-- The save with a number has ended. -/
def HasEnded (r : Roll α) (number : Nat) : Prop := ∃ how, (number, how) ∈ r.ended

variable {r : Roll α} {m n : Manager α} {s t : Save} {number g : Nat}

/-- What every act preserves holds after every run. -/
theorem run_induction {p : Roll α → Prop} (hr : p r) (hact : ∀ q a, p q → p (q.act a))
    (acts : List (Act α)) : p (r.run acts) := by
  induction acts generalizing r with
  | nil => exact hr
  | cons a acts ih => exact ih (hact r a hr)

/-! ## What is kept -/

/-- What the saves on the roll have to do with the suspended ones. -/
structure Kept (r : Roll α) : Prop where
  numbered : r.manager.Numbered
  rising : (r.started.map Prod.snd).Pairwise (· < ·)
  le : ∀ p ∈ r.started, p.2 ≤ r.manager.generation
  created : ∀ p ∈ r.started, p.1 < r.manager.created
  taken : ∀ s ∈ r.manager.saves, ∀ g,
    (s.number, g) ∈ r.started ↔ Stage.generation? s.stage = some g
  ended : ∀ number, r.HasEnded number ↔
    number < r.manager.created ∧ ∀ s ∈ r.manager.saves, s.number ≠ number
  isSaving : r.manager.isSaving = true ↔
    ∃ s ∈ r.manager.saves, Stage.generation? s.stage = some r.manager.generation

theorem kept_start (config : SavingConfig) : (start config : Roll α).Kept where
  numbered := numbered_start config
  rising := List.Pairwise.nil
  le := nofun
  created := nofun
  taken := nofun
  ended := by simp [HasEnded, start, Manager.start]
  isSaving := by simp [start, Manager.start]

/-- Nothing else of a manager matters than the saves, their numbers, the generation and the flag. -/
theorem Kept.congr (h : r.Kept) (hsaves : n.saves = r.manager.saves)
    (hcreated : n.created = r.manager.created) (hgeneration : n.generation = r.manager.generation)
    (hflag : n.isSaving = r.manager.isSaving) : Kept { r with manager := n } where
  numbered := h.numbered.of_sublist (hsaves ▸ List.Sublist.refl _) hcreated
  rising := h.rising
  le := by
    rw [hgeneration]
    exact h.le
  created := by
    rw [hcreated]
    exact h.created
  taken := by
    rw [hsaves]
    exact h.taken
  ended := by
    rw [hsaves, hcreated]
    exact h.ended
  isSaving := by
    rw [hflag, hsaves, hgeneration]
    exact h.isSaving

/-- No two saves have taken the same generation. -/
theorem Kept.eq_of_taken (h : r.Kept) (hs : s ∈ r.manager.saves) (ht : t ∈ r.manager.saves)
    (hsg : Stage.generation? s.stage = some g) (htg : Stage.generation? t.stage = some g) :
    s = t := by
  have hnodup : (r.started.map Prod.snd).Nodup := h.rising.imp Nat.ne_of_lt
  have hpair := List.inj_on_of_nodup_map hnodup ((h.taken s hs g).2 hsg) ((h.taken t ht g).2 htg) rfl
  exact h.numbered.eq hs ht (congrArg Prod.fst hpair)

/-! ## Steps of saves -/

theorem Kept.create (h : r.Kept) (now : Nat) (ticket : Option Nat) (data : String) :
    Kept { r with manager := r.manager.create now ticket data } where
  numbered := h.numbered.create now ticket data
  rising := h.rising
  le := h.le
  created := fun p hp => Nat.lt_succ_of_lt (h.created p hp)
  taken := by
    intro s hs g
    rcases List.mem_append.1 hs with hs | hs
    · exact h.taken s hs g
    · rw [List.mem_singleton.1 hs]
      constructor
      · intro hmem
        exact absurd (h.created _ hmem) (Nat.lt_irrefl _)
      · nofun
  ended := by
    intro number
    refine (h.ended number).trans ⟨?_, ?_⟩
    · rintro ⟨hlt, hnone⟩
      refine ⟨Nat.lt_succ_of_lt hlt, fun s hs => ?_⟩
      rcases List.mem_append.1 hs with hs | hs
      · exact hnone s hs
      · rw [List.mem_singleton.1 hs]
        exact Nat.ne_of_gt hlt
    · rintro ⟨hlt, hnone⟩
      have hne := hnone _ (List.mem_append_right _ (List.mem_singleton_self _))
      refine ⟨Nat.lt_of_le_of_ne (Nat.le_of_lt_succ hlt) (Ne.symm hne), fun s hs => ?_⟩
      exact hnone s (List.mem_append_left _ hs)
  isSaving := by
    refine h.isSaving.trans ?_
    simp only [Manager.create, List.mem_append, List.mem_singleton, or_and_right, exists_or,
      exists_eq_left, Stage.generation?, reduceCtorEq, or_false]

/-- A save that stays suspended has not ended. -/
theorem Kept.hasEnded_suspend (h : r.Kept) (hs : s ∈ r.manager.saves) (stage : Stage) (due : Nat)
    (number : Nat) :
    r.HasEnded number ↔ number < r.manager.created ∧
      ∀ t ∈ (r.manager.suspend s stage due).saves, t.number ≠ number := by
  refine (h.ended number).trans (and_congr_right fun _ => ?_)
  simp only [Manager.suspend, h.numbered.mem_saves hs, List.mem_append, List.mem_singleton,
    or_imp, forall_and, forall_eq]

/-- A save that has started goes on in its generation. -/
theorem Kept.suspend (h : r.Kept) (hs : s ∈ r.manager.saves)
    (hg : Stage.generation? s.stage = some g) {stage : Stage}
    (hstage : Stage.generation? stage = some g) (due : Nat) :
    Kept { r with manager := r.manager.suspend s stage due } where
  numbered := h.numbered.suspend hs stage due
  rising := h.rising
  le := h.le
  created := h.created
  taken := by
    intro t ht g'
    rcases List.mem_append.1 ht with ht | ht
    · exact h.taken t (mem_others.1 ht).1 g'
    · rw [List.mem_singleton.1 ht]
      have htaken := h.taken s hs g'
      rw [hg] at htaken
      rw [hstage]
      exact htaken
  ended := h.hasEnded_suspend hs stage due
  isSaving := by
    refine h.isSaving.trans ?_
    simp only [Manager.suspend, h.numbered.mem_saves hs, List.mem_append, List.mem_singleton,
      or_and_right, exists_or, exists_eq_left, hg, hstage]

/-- A save that ends clears the flag if it is the latest, and no other save is. -/
theorem Kept.isSaving_cancelled (h : r.Kept) (hs : s ∈ r.manager.saves) :
    (r.manager.cancelled s).isSaving = true ↔
      ∃ t ∈ r.manager.others s, Stage.generation? t.stage = some r.manager.generation := by
  have hrest : Stage.generation? s.stage ≠ some r.manager.generation →
      (r.manager.isSaving = true ↔
        ∃ t ∈ r.manager.others s, Stage.generation? t.stage = some r.manager.generation) := by
    intro hstale
    refine h.isSaving.trans ?_
    simp only [h.numbered.mem_saves hs, or_and_right, exists_or, exists_eq_left, hstale, or_false]
  unfold Manager.cancelled
  cases hg : Stage.generation? s.stage with
  | none => exact hrest (by simp [hg])
  | some g =>
    by_cases hcurrent : g = r.manager.generation
    · have hcleared : (r.manager.retire s g).isSaving = false := by
        simp [retire, isCurrent, hcurrent]
      refine ⟨fun hset => ?_, ?_⟩
      · rw [hcleared] at hset
        cases hset
      · rintro ⟨t, ht, htg⟩
        obtain ⟨hmem, hnumber⟩ := mem_others.1 ht
        rw [← hcurrent] at htg
        exact absurd (congrArg Save.number (h.eq_of_taken hmem hs htg hg)) hnumber
    · have hkept : (r.manager.retire s g).isSaving = r.manager.isSaving := by
        simp [retire, isCurrent, hcurrent]
      dsimp only
      rw [hkept]
      exact hrest (by simp [hg, hcurrent])

theorem saves_cancelled (m : Manager α) (s : Save) : (m.cancelled s).saves = m.others s := by
  unfold Manager.cancelled
  split <;> rfl

theorem created_cancelled (m : Manager α) (s : Save) : (m.cancelled s).created = m.created := by
  unfold Manager.cancelled
  split <;> rfl

theorem generation_cancelled (m : Manager α) (s : Save) :
    (m.cancelled s).generation = m.generation := by
  unfold Manager.cancelled
  split <;> rfl

/-- A save ends. -/
theorem Kept.cancelled (h : r.Kept) (hs : s ∈ r.manager.saves) (how : Option SaveEnd) :
    Kept { r with manager := r.manager.cancelled s, ended := r.ended ++ [(s.number, how)] } where
  numbered :=
    h.numbered.of_sublist (saves_cancelled r.manager s ▸ List.filter_sublist)
      (created_cancelled r.manager s)
  rising := h.rising
  le := by
    rw [generation_cancelled]
    exact h.le
  created := by
    rw [created_cancelled]
    exact h.created
  taken := by
    rw [saves_cancelled]
    exact fun t ht => h.taken t (mem_others.1 ht).1
  ended := by
    intro number
    rw [saves_cancelled, created_cancelled]
    constructor
    · rintro ⟨how', hmem⟩
      rcases List.mem_append.1 hmem with hmem | hmem
      · obtain ⟨hlt, hnone⟩ := (h.ended number).1 ⟨how', hmem⟩
        exact ⟨hlt, fun t ht => hnone t (mem_others.1 ht).1⟩
      · cases List.mem_singleton.1 hmem
        exact ⟨h.numbered.lt s hs, fun t ht => (mem_others.1 ht).2⟩
    · rintro ⟨hlt, hnone⟩
      by_cases hnumber : s.number = number
      · exact ⟨how, List.mem_append_right _ (List.mem_singleton.2 (by rw [hnumber]))⟩
      · have hended : r.HasEnded number := by
          refine (h.ended number).2 ⟨hlt, fun t ht => ?_⟩
          rcases (h.numbered.mem_saves hs).1 ht with ht | rfl
          · exact hnone t ht
          · exact hnumber
        exact hended.imp fun how' hmem => List.mem_append_left _ hmem
  isSaving := by
    rw [saves_cancelled, generation_cancelled]
    exact h.isSaving_cancelled hs

/-- The roll once a save has started, before it sends anything. -/
def begun (r : Roll α) (s : Save) : Roll α :=
  let generation := r.manager.generation + 1
  { r with
    manager := { r.manager.suspend s (.pausing generation (.post s.data) 0) s.due with
      generation := generation, isSaving := true }
    started := r.started ++ [(s.number, generation)] }

/-- A save that starts takes the next generation. -/
theorem Kept.begun (h : r.Kept) (hs : s ∈ r.manager.saves) (hstage : s.stage = .created) :
    (r.begun s).Kept where
  numbered := (h.numbered.suspend hs _ s.due).of_sublist (List.Sublist.refl _) rfl
  rising := by
    rw [Roll.begun, List.map_append, List.pairwise_append]
    refine ⟨h.rising, List.pairwise_singleton _ _, fun g hg g' hg' => ?_⟩
    obtain ⟨p, hp, rfl⟩ := List.mem_map.1 hg
    rw [List.mem_singleton.1 hg']
    exact Nat.lt_succ_of_le (h.le p hp)
  le := by
    intro p hp
    rcases List.mem_append.1 hp with hp | hp
    · exact Nat.le_succ_of_le (h.le p hp)
    · rw [List.mem_singleton.1 hp]
      exact Nat.le_refl _
  created := by
    intro p hp
    rcases List.mem_append.1 hp with hp | hp
    · exact h.created p hp
    · rw [List.mem_singleton.1 hp]
      exact h.numbered.lt s hs
  taken := by
    intro t ht g
    have hnone : (s.number, g) ∉ r.started := fun hmem => by
      rw [h.taken s hs g, hstage] at hmem
      cases hmem
    rcases List.mem_append.1 ht with ht | ht
    · obtain ⟨hmem, hnumber⟩ := mem_others.1 ht
      simp [Roll.begun, hnumber, h.taken t hmem g]
    · rw [List.mem_singleton.1 ht]
      simp [Roll.begun, hnone, Stage.generation?, eq_comm]
  ended := h.hasEnded_suspend hs _ s.due
  isSaving := by
    refine iff_of_true rfl ⟨_, List.mem_append_right _ (List.mem_singleton_self _), rfl⟩

/-- A save that has started stays suspended or ends. -/
theorem Kept.outcome {ended : Option (Nat × SaveEnd)} (h : r.Kept) (hs : s ∈ r.manager.saves)
    (hg : Stage.generation? s.stage = some g) (ho : r.manager.Outcome s g n ended)
    (hcreated : n.created = r.manager.created)
    (hgeneration : n.generation = r.manager.generation) :
    Kept { r with
      manager := n
      ended := r.ended ++ ended.toList.map fun e => (e.1, some e.2) } := by
  cases ho with
  | @stays stage due hstage hsaves hflag =>
    rw [Option.toList_none, List.map_nil, List.append_nil]
    exact (h.suspend hs hg hstage due).congr hsaves hcreated hgeneration hflag
  | @ends how hsaves hflag =>
    have hretire : r.manager.cancelled s = r.manager.retire s g := by
      rw [Manager.cancelled, hg]
    have hkept := h.cancelled hs (some how)
    rw [hretire] at hkept
    exact hkept.congr hsaves hcreated hgeneration hflag

/-- The others are the same once a save has started. -/
theorem others_begun (r : Roll α) (s : Save) :
    (r.begun s).manager.others s = r.manager.others s := by
  simp [begun, others, Manager.suspend, List.filter_filter]

/-- What a step of a save does that starts with it. -/
theorem outcome_begun {ended : Option (Nat × SaveEnd)} (hstage : s.stage = .created)
    (ho : (r.manager.started s).Outcome s (r.manager.generation + 1) n ended) :
    (r.begun s).manager.Outcome
      { s with stage := .pausing (r.manager.generation + 1) (.post s.data) 0 }
      (r.manager.generation + 1) n ended := by
  have hothers : (r.manager.started s).others s = (r.begun s).manager.others s :=
    (others_started r.manager s s).trans (others_begun r s).symm
  have hstarted : r.manager.started s =
      { r.manager with generation := r.manager.generation + 1, isSaving := true } := by
    rw [Manager.started, hstage]
  cases ho with
  | stays hg hsaves hflag =>
    rw [hothers] at hsaves
    rw [hstarted] at hflag
    exact .stays hg hsaves hflag
  | ends hsaves hflag =>
    rw [hothers] at hsaves
    rw [hstarted] at hflag
    exact .ends hsaves hflag

/-! ## Acts -/

theorem act_move {v : Move α} (hstarts : starts r.manager v = []) (hends : ends r.manager v = []) :
    r.act (.move v) = { r with manager := (r.manager.move v).manager } := by
  simp [act, hstarts, hends]

theorem Kept.resume (h : r.Kept) (now number : Nat) (reply : Reply) :
    (r.act (.move (.resume now number reply))).Kept := by
  cases hfind : r.manager.find? number with
  | none =>
    have hmove : r.manager.move (.resume now number reply) = { manager := r.manager } := by
      simp only [Manager.move, hfind]
    rw [act_move (by simp [starts, hfind]) (by simp [ends, hmove]), hmove]
    exact h
  | some s =>
    obtain ⟨hs, rfl⟩ := mem_of_find? hfind
    have hmove : r.manager.move (.resume now s.number reply) = r.manager.resume now s reply := by
      simp only [Manager.move, hfind]
    have hgoes := goes_resume r.manager now s reply
    have hact : r.act (.move (.resume now s.number reply)) =
        { manager := (r.manager.resume now s reply).manager
          started := r.started ++ (starts r.manager (.resume now s.number reply)).map
            fun number => (number, (r.manager.resume now s reply).manager.generation)
          ended := r.ended ++ (r.manager.resume now s reply).ended.toList.map
            fun e => (e.1, some e.2) } := by
      simp only [act, ends, hmove]
    have hcreated := hgoes.created.trans (created_started r.manager s)
    rw [hact]
    cases hg : Stage.generation? s.stage with
    | some g =>
      obtain ⟨hstarted, hattempt⟩ := started_of_generation? (m := r.manager) hg
      have hstarts : starts r.manager (.resume now s.number reply) = [] := by
        cases hstage : s.stage <;> simp_all [starts, Stage.generation?]
      rw [hstarts, List.map_nil, List.append_nil]
      have ho := hgoes.outcome
      have hgeneration := hgoes.generation
      rw [hstarted] at ho hgeneration
      rw [hattempt] at ho
      exact h.outcome hs hg ho hcreated hgeneration
    | none =>
      -- The save begins first, and then goes on like one that began before.
      have hstage : s.stage = .created := by
        cases hstage : s.stage <;> simp_all [Stage.generation?]
      have hstarts : starts r.manager (.resume now s.number reply) = [s.number] := by
        simp [starts, hfind, hstage]
      have hattempt : (r.manager.attempt s).generation = r.manager.generation + 1 := by
        rw [attempt, hstage]
      have hgeneration : (r.manager.resume now s reply).manager.generation =
          r.manager.generation + 1 := by
        rw [hgoes.generation, Manager.started, hstage]
      have ho := hgoes.outcome
      rw [hattempt] at ho
      rw [hstarts, hgeneration]
      exact (h.begun hs hstage).outcome (List.mem_append_right _ (List.mem_singleton_self _)) rfl
        (outcome_begun hstage ho) hcreated hgeneration

theorem Kept.cancel (h : r.Kept) (number : Nat) : (r.act (.cancel number)).Kept := by
  rw [act]
  cases hfind : r.manager.find? number with
  | none => exact h
  | some s =>
    obtain ⟨hs, rfl⟩ := mem_of_find? hfind
    exact h.cancelled hs none

theorem Kept.fire (h : r.Kept) (now : Nat) (read : α → Option String) :
    (r.act (.move (.fire now read))).Kept := by
  have hcancel : Kept { r with manager := r.manager.cancelPending } := h.congr rfl rfl rfl rfl
  have hends : ends r.manager (.fire now read) = [] := by
    simp [ends, Manager.move, ended_fire]
  rw [act_move rfl hends]
  show Kept { r with manager := (r.manager.fire now read).manager }
  have hfires := r.manager.fires_fire now read
  generalize r.manager.fire now read = step at hfires ⊢
  cases hfires with
  | closed => exact h
  | saves => exact hcancel.create now none _
  | skips => exact hcancel

/-! ## Closing act by act -/

/-- The acts that close a manager. -/
def closing (m : Manager α) : List (Act α) :=
  .move .cancelPending :: ((m.saves.filter isTracked).map fun s => .cancel s.number) ++
    [.disconnect]

theorem cancelled_eq (m : Manager α) (s : Save) :
    m.cancelled s = { m with
      saves := m.others s
      isSaving := m.isSaving && !(Stage.generation? s.stage).any m.isCurrent } := by
  unfold Manager.cancelled
  cases Stage.generation? s.stage with
  | none => simp
  | some g =>
    unfold retire
    cases hcurrent : m.isCurrent g <;> simp [hcurrent]

/-- Saves that are cancelled one by one are cancelled together. -/
theorem run_cancel (h : r.manager.Numbered) (l : List Save) (hl : l.Sublist r.manager.saves) :
    r.run (l.map fun s => .cancel s.number) =
      { r with
        manager := { r.manager with
          saves := r.manager.saves.filter fun t => !(l.map Save.number).contains t.number
          isSaving := r.manager.isSaving &&
            !l.any fun s => (Stage.generation? s.stage).any r.manager.isCurrent }
        ended := r.ended ++ l.map fun s => (s.number, none) } := by
  induction l generalizing r with
  | nil => simp [run]
  | cons s l ih =>
    have hs : s ∈ r.manager.saves := hl.subset List.mem_cons_self
    have hnodup : ((s :: l).map Save.number).Nodup := h.nodup.sublist (hl.map _)
    have hne : ∀ t ∈ l, t.number ≠ s.number := fun t ht heq =>
      (List.nodup_cons.1 hnodup).1 (heq ▸ List.mem_map_of_mem ht)
    have hact : r.act (.cancel s.number) =
        { r with manager := r.manager.cancelled s, ended := r.ended ++ [(s.number, none)] } := by
      rw [act, h.find? hs]
    have hnumbered : (r.manager.cancelled s).Numbered :=
      h.of_sublist (saves_cancelled r.manager s ▸ List.filter_sublist)
        (created_cancelled r.manager s)
    have hrest : l.Sublist (r.manager.cancelled s).saves := by
      have hfilter : l.filter (fun t => t.number != s.number) = l :=
        List.filter_eq_self.2 fun t ht => by simpa using hne t ht
      rw [saves_cancelled, others, ← hfilter]
      exact ((List.sublist_cons_self s l).trans hl).filter _
    show (r.act (.cancel s.number)).run (l.map fun s => .cancel s.number) = _
    rw [hact, ih hnumbered hrest, cancelled_eq]
    simp only [others, List.filter_filter, List.map_cons, List.any_cons, Bool.not_or,
      Bool.and_assoc, List.append_assoc, List.singleton_append]
    congr 3
    funext t
    rw [List.contains_cons, Bool.not_or, Bool.and_comm]
    rfl

/-- **Closing at once is closing act by act.** -/
theorem act_close (h : r.manager.Numbered) :
    r.act (.move .close) = r.run (closing r.manager) := by
  have htracked : r.manager.saves.filter (fun t =>
      !((r.manager.saves.filter isTracked).map Save.number).contains t.number) =
        r.manager.saves.filter fun s => !isTracked s := by
    refine List.filter_congr fun s hs => ?_
    rw [Bool.not_inj_iff, Bool.eq_iff_iff, List.contains_iff_mem, List.mem_map]
    constructor
    · rintro ⟨t, ht, hnumber⟩
      obtain ⟨hmem, htracked⟩ := List.mem_filter.1 ht
      rw [← h.eq hmem hs hnumber]
      exact htracked
    · intro htracked
      exact ⟨s, List.mem_filter.2 ⟨hs, htracked⟩, rfl⟩
  have hcancel : r.act (.move .cancelPending) =
      { r with manager := r.manager.cancelPending } := act_move rfl rfl
  have hall := run_cancel (r := { r with manager := r.manager.cancelPending }) ⟨h.nodup, h.lt⟩
    (r.manager.saves.filter isTracked) List.filter_sublist
  unfold run at hall
  rw [run, closing, List.cons_append, List.foldl_cons, List.foldl_append, hcancel, hall]
  simp only [cancelPending, htracked]
  have hclose : r.act (.move .close) =
      { manager := r.manager.close
        started := r.started
        ended := r.ended ++ (r.manager.saves.filter isTracked).map fun s => (s.number, none) } := by
    simp [act, starts, ends, Manager.move]
  rw [hclose]
  rfl

theorem Kept.act (h : r.Kept) (a : Act α) : (r.act a).Kept := by
  have hquiet : ∀ {q : Roll α}, q.Kept → (q.act .disconnect).Kept ∧
      (q.act (.move .cancelPending)).Kept := by
    intro q hq
    refine ⟨hq.congr rfl rfl rfl rfl, ?_⟩
    rw [act_move rfl rfl]
    exact hq.congr rfl rfl rfl rfl
  cases a with
  | cancel number => exact h.cancel number
  | disconnect => exact (hquiet h).1
  | move v =>
    cases v with
    | schedule now source =>
      rw [act_move rfl rfl]
      exact h.congr rfl rfl rfl rfl
    | cancelPending => exact (hquiet h).2
    | create now ticket data =>
      rw [act_move rfl rfl]
      exact h.create now ticket data
    | fire now read => exact h.fire now read
    | resume now number reply => exact h.resume now number reply
    | close =>
      -- By induction on the saves to be cancelled, between closing the window and the connection.
      rw [act_close h.numbered, closing, List.cons_append, run, List.foldl_cons, List.foldl_append]
      refine (hquiet ?_).1
      generalize r.manager.saves.filter isTracked = l
      have hstart := (hquiet h).2
      generalize r.act (.move .cancelPending) = q at hstart ⊢
      induction l generalizing q with
      | nil => exact hstart
      | cons s l ih => exact ih _ (hstart.cancel s.number)

/-- **The flag tells the truth.** -/
theorem isSaving_tells_truth (config : SavingConfig) (acts : List (Act α)) :
    (((start config : Roll α).run acts).manager.isSaving = true ↔
      ∃ number, (number, ((start config : Roll α).run acts).manager.generation) ∈
          ((start config : Roll α).run acts).started ∧
        ¬ ((start config : Roll α).run acts).HasEnded number) ∧
    (((start config : Roll α).run acts).started.map Prod.snd).Pairwise (· < ·) := by
  have h : ((start config : Roll α).run acts).Kept :=
    run_induction (kept_start config) (fun _ a hq => hq.act a) acts
  refine ⟨h.isSaving.trans ⟨?_, ?_⟩, h.rising⟩
  · rintro ⟨s, hs, hg⟩
    exact ⟨s.number, (h.taken s hs _).2 hg, fun hended => ((h.ended _).1 hended).2 s hs rfl⟩
  · rintro ⟨number, htaken, hended⟩
    have hsuspended : ∃ s ∈ ((start config : Roll α).run acts).manager.saves, s.number = number := by
      by_contra hnone
      refine hended ((h.ended number).2 ⟨h.created _ htaken, fun s hs heq => hnone ⟨s, hs, heq⟩⟩)
    obtain ⟨s, hs, rfl⟩ := hsuspended
    exact ⟨s, hs, (h.taken s hs _).1 htaken⟩

end Roll

end Spreadsheet
