import Spreadsheet.Descent
import Spreadsheet.Saving.Manager

/-!
# The work left in saving

Each step of a save takes a reply from a script or ends the save, once the script has run out and
every reply is that the save is done. So the replies left and the saves and windows left, each with
a weight, bound the number of steps to come. Main statements: `work_fire` and `work_resume`, the
steps make the work less.
-/

namespace Spreadsheet

variable {α : Type}

/-- The weight of a suspended save. A save that waits pauses at most once before it sends. -/
def Save.weight (s : Save) : Nat :=
  match s.stage with
  | .waiting _ _ _ _ => 2
  | _ => 1

theorem Save.weight_pos (s : Save) : 0 < s.weight := by
  unfold weight
  split <;> decide

namespace Manager

/-- The weight of saves. -/
def weight (saves : List Save) : Nat := total Save.weight saves

/-- The weight of the window and of all saves. -/
def work (m : Manager α) : Nat := (if m.window.isSome then 2 else 0) + weight m.saves

theorem weight_others {m : Manager α} {s : Save} (h : s ∈ m.saves) :
    weight (m.others s) + s.weight ≤ weight m.saves := by
  unfold others
  generalize m.saves = l at h
  have hle : ∀ l : List Save, weight (l.filter fun t => t.number != s.number) ≤ weight l := by
    intro l
    induction l with
    | nil => simp [weight]
    | cons t l ih =>
      by_cases ht : (t.number != s.number) = true
      · rw [List.filter_cons_of_pos (by simpa using ht)]
        simpa [weight] using ih
      · rw [List.filter_cons_of_neg (by simpa using ht)]
        simp only [weight, total_cons] at ih ⊢
        omega
  induction l with
  | nil => simp at h
  | cons t l ih =>
    rcases List.mem_cons.1 h with rfl | h
    · rw [List.filter_cons_of_neg (by simp)]
      have := hle l
      simp only [weight, total_cons] at this ⊢
      omega
    · have := ih h
      by_cases ht : (t.number != s.number) = true
      · rw [List.filter_cons_of_pos (by simpa using ht)]
        simp only [weight, total_cons] at this ⊢
        omega
      · rw [List.filter_cons_of_neg (by simpa using ht)]
        simp only [weight, total_cons] at this ⊢
        omega

theorem work_fire {m : Manager α} (now : Nat) (read : α → Option String)
    (h : m.window.isSome) : (m.fire now read).manager.work < m.work := by
  unfold fire
  split
  · rename_i hw; simp [hw] at h
  · split
    · simp [work, h, create, cancelPending, weight, Save.weight]
      omega
    · simp [work, h, cancelPending]

/-- What a save leaves behind: the window as it was, and itself with at most a given weight. -/
def Leaves (m : Manager α) (s : Save) (bound : Nat) (t : Step α) : Prop :=
  t.manager.window = m.window ∧ weight t.manager.saves ≤ weight (m.others s) + bound

theorem leaves_finish (m : Manager α) (s : Save) (generation : Nat) (how : SaveEnd)
    (effects : List Effect) (bound : Nat) :
    m.Leaves s bound (m.finish s generation how effects) :=
  ⟨rfl, Nat.le_add_right _ _⟩

theorem leaves_pause (m : Manager α) (now : Nat) (s : Save) (generation : Nat) (request : Request)
    (failures : Nat) (delay : Int) (effects : List Effect) :
    m.Leaves s 1 (m.pause now s generation request failures delay effects) := by
  refine ⟨rfl, ?_⟩
  simp [pause, suspend, weight, Save.weight]

theorem leaves_complete (m : Manager α) (s : Save) (generation : Nat) (doneAt : Json)
    (bound : Nat) : m.Leaves s bound (m.complete s generation doneAt) := by
  unfold complete
  split
  · exact leaves_finish { m with succeeded := true, lastDoneAt := doneAt } s _ _ _ _
  · exact leaves_finish ..

theorem leaves_receive (m : Manager α) (now : Nat) (s : Save) (generation : Nat)
    (request : Request) (failures : Nat) (response : Response) :
    m.Leaves s 1 (m.receive now s generation request failures response) := by
  unfold receive
  split
  · exact leaves_complete ..
  · unfold keepAsking
    split
    · exact leaves_pause ..
    · exact leaves_finish ..
  · exact leaves_finish ..
  · unfold recover
    split
    · exact leaves_finish { m with succeeded := false } s _ _ _ _
    · split
      · exact leaves_finish ..
      · exact leaves_pause ..

theorem leaves_send (m : Manager α) (now : Nat) (s : Save) (generation : Nat) (request : Request)
    (failures : Nat) (reply : Reply) :
    m.Leaves s 2 (m.send now s generation request failures reply) := by
  unfold send
  split
  · exact leaves_finish ..
  · split
    · exact leaves_finish ..
    split
    · obtain ⟨hw, hs⟩ := leaves_receive m now s generation request failures reply.response
      exact ⟨hw, Nat.le_trans hs (Nat.add_le_add_left (by decide) _)⟩
    · refine ⟨rfl, ?_⟩
      simp [suspend, weight, Save.weight]

theorem leaves_send_last (m : Manager α) (now : Nat) (s : Save) (generation : Nat)
    (request : Request) (failures : Nat) (reply : Reply)
    (h : (!m.closed && request.isEncodable) = false ∨ reply = .done) :
    m.Leaves s 0 (m.send now s generation request failures reply) := by
  unfold send
  split
  · exact leaves_finish ..
  · split
    · exact leaves_finish ..
    rename_i he hc
    obtain rfl := h.resolve_left (by simp_all)
    have : (m.receive now s generation request failures Reply.done.response) =
        m.complete s generation .null := by
      simp [receive, Reply.read_done]
    simp only [Reply.done] at this ⊢
    rw [this]
    exact leaves_complete ..

theorem work_of_leaves {m : Manager α} {s : Save} {bound : Nat} {t : Step α} (hs : s ∈ m.saves)
    (h : m.Leaves s bound t) : t.manager.work + s.weight ≤ m.work + bound := by
  have := weight_others hs
  simp only [work, h.1]
  have := h.2
  omega

/-- A step that sends takes a reply from the script, or finds it empty and ends the save; a step
that sends nothing makes the save lighter. -/
theorem work_resume {m : Manager α} {s : Save} (now : Nat) (script : List Reply)
    (hs : s ∈ m.saves) :
    let t := m.resume now s (script.headD .done)
    (2 * (if m.sends s then script.tail else script).length + t.manager.work) <
      2 * script.length + m.work := by
  intro t
  have hpos := s.weight_pos
  have hsend : ∀ (n : Manager α) (generation : Nat) (request : Request) (failures : Nat),
      n.saves = m.saves → n.window = m.window → n.closed = m.closed →
      m.sends s = (!m.closed && request.isEncodable) → t = n.send now s generation request failures (script.headD .done) →
      (2 * (if m.sends s then script.tail else script).length + t.manager.work) <
        2 * script.length + m.work := by
    intro n generation request failures h₁ h₂ h₃ h₄ ht
    have hwork : n.work = m.work := by simp [work, h₁, h₂]
    rw [ht, h₄, ← hwork]
    have hsn : s ∈ n.saves := h₁ ▸ hs
    cases hc : !m.closed && request.isEncodable with
    | false =>
      have := work_of_leaves hsn (leaves_send_last n now s generation request failures
        (script.headD .done) (.inl (h₃ ▸ hc)))
      simp only [Bool.false_eq_true, ↓reduceIte]
      omega
    | true =>
      simp only [↓reduceIte]
      cases script with
      | nil =>
        have := work_of_leaves hsn (leaves_send_last n now s generation request failures
          .done (.inr rfl))
        simp only [List.headD_nil, List.tail_nil, List.length_nil]
        omega
      | cons reply rest =>
        have := work_of_leaves hsn (leaves_send n now s generation request failures reply)
        simp only [List.headD_cons, List.tail_cons, List.length_cons]
        omega
  cases hst : s.stage with
  | created =>
    exact hsend { m with generation := m.generation + 1, isSaving := true } (m.generation + 1)
      (.post s.data) 0 rfl rfl rfl (by simp [sends, hst, Request.isEncodable]) (by simp only [t, resume, hst])
  | pausing generation request failures =>
    exact hsend m generation request failures rfl rfl rfl (by simp [sends, hst])
      (by simp only [t, resume, hst])
  | waiting generation request failures response =>
    have hns : m.sends s = false := by simp [sends, hst]
    have ht : t = m.receive now s generation request failures response := by
      simp only [t, resume, hst]
    have hw : s.weight = 2 := by simp [Save.weight, hst]
    have := work_of_leaves hs (leaves_receive m now s generation request failures response)
    rw [hns, ht]
    simp only [Bool.false_eq_true, ↓reduceIte]
    omega

end Manager

end Spreadsheet
