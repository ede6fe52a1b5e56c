import Spreadsheet.Saving.Timeline

/-!
# What a save can do when it goes on

A save that goes on is about one attempt (`attempt`): a request in the save's generation, with the
number of times that it failed before. It may have an answer in hand (`answer?`), and what it does
next depends on the two and on whether its generation is the latest.

**Main statements.** `goes_resume` lists all that a step can do to the manager, `requests_resume`
says what it sends, and `notices_resume` that only the latest generation tells the user anything.
Later proofs take a step apart by these and never open the step itself.
-/

namespace Spreadsheet

variable {α : Type}

/-- A request of the save of a generation, and how often it failed before. -/
structure Attempt where
  generation : Nat
  request : Request
  failures : Nat
  deriving DecidableEq, Repr

/-- The request in an effect. -/
def Effect.request? : Effect → Option Request
  | .request r => some r
  | _ => none

/-- The notice in an effect. -/
def Effect.notice? : Effect → Option Notice
  | .notify n => some n
  | _ => none

/-- Whether a failed request is repeated. A body that is too deep breaks the save off. -/
def RemoteError.isRetried : RemoteError → Bool
  | .tooDeep _ => false
  | _ => true

namespace Manager

/-! ## The attempt of a save -/

/-- The manager once a save has started. A save that starts takes the next generation. -/
def started (m : Manager α) (s : Save) : Manager α :=
  match s.stage with
  | .created => { m with generation := m.generation + 1, isSaving := true }
  | _ => m

/-- The attempt that a save is about when it goes on. -/
def attempt (m : Manager α) (s : Save) : Attempt :=
  match s.stage with
  | .created => ⟨m.generation + 1, .post s.data, 0⟩
  | .waiting generation request failures _ => ⟨generation, request, failures⟩
  | .pausing generation request failures => ⟨generation, request, failures⟩

/-- The attempt that a save sends when it goes on. -/
def sent? (m : Manager α) (s : Save) : Option Attempt :=
  if m.sends s then some (m.attempt s) else none

/-- The answer that a save has in hand when it goes on: to the request that it waited for, or to
the one that it sends, if the reply takes no time. -/
def answer? (m : Manager α) (s : Save) (reply : Reply) : Option (Except RemoteError Answer) :=
  match s.stage with
  | .waiting _ request _ response => some (response.read request.endpoint)
  | _ =>
    if m.sends s ∧ reply.delay = none then
      some (reply.response.read (m.attempt s).request.endpoint)
    else none

/-! ## Steps taken apart -/

/-- Why a save breaks off. -/
inductive Breaks (m : Manager α) (a : Attempt) (answer : Option (Except RemoteError Answer)) :
    SaveFault → Prop
  | notEncodable : answer = none → a.request.isEncodable = false →
      m.Breaks a answer .jobNotEncodable
  | closed : answer = none → a.request.isEncodable = true → m.closed = true →
      m.Breaks a answer .clientClosed
  | tooDeep {innermost : Bracket} : answer = some (.error (.tooDeep innermost)) →
      m.Breaks a answer (.bodyTooDeep innermost)
  | askOutOfRange {job : JsonText} {doneAt : Json} :
      answer = some (.ok (.inProgress job doneAt)) → maxDoublings < (a.request.next job).2 →
      m.Breaks a answer .delayOutOfRange
  | retryOutOfRange {cause : RemoteError} : answer = some (.error cause) →
      cause.isRetried = true → a.failures < m.config.maxRetries → maxDoublings < a.failures →
      m.Breaks a answer .delayOutOfRange

/-- What a save can do when it goes on with an attempt and an answer: the manager after it, and how
the save ended. -/
inductive Goes (m : Manager α) (s : Save) (a : Attempt)
    (answer : Option (Except RemoteError Answer)) : Manager α → Option (Nat × SaveEnd) → Prop
  | waits {response : Response} {due : Nat} : answer = none → m.closed = false →
      a.request.isEncodable = true →
      m.Goes s a answer (m.suspend s (.waiting a.generation a.request a.failures response) due) none
  | asks {job : JsonText} {doneAt : Json} {due : Nat} :
      answer = some (.ok (.inProgress job doneAt)) → (a.request.next job).2 ≤ maxDoublings →
      m.Goes s a answer
        (m.suspend s
          (.pausing a.generation (.poll (a.request.next job).1 (a.request.next job).2) 0) due)
        none
  | retries {cause : RemoteError} {due : Nat} : answer = some (.error cause) →
      cause.isRetried = true → a.failures < m.config.maxRetries → a.failures ≤ maxDoublings →
      m.Goes s a answer (m.suspend s (.pausing a.generation a.request (a.failures + 1)) due) none
  | completes {job : Option JsonText} {doneAt : Json} :
      answer = some (.ok (.done job doneAt)) → m.isCurrent a.generation = true →
      m.Goes s a answer
        ({ m with succeeded := true, lastDoneAt := doneAt }.retire s a.generation)
        (some (s.number, .done))
  | comesLate {job : Option JsonText} {doneAt : Json} :
      answer = some (.ok (.done job doneAt)) → m.isCurrent a.generation = false →
      m.Goes s a answer (m.retire s a.generation) (some (s.number, .abandoned))
  | givesUp {cause : RemoteError} : answer = some (.error cause) → cause.isRetried = true →
      m.config.maxRetries ≤ a.failures →
      m.Goes s a answer ({ m with succeeded := false }.retire s a.generation)
        (some (s.number, .abandoned))
  | breaks {fault : SaveFault} : m.Breaks a answer fault →
      m.Goes s a answer (m.retire s a.generation) (some (s.number, .broken fault))

variable {m : Manager α} {now : Nat} {s : Save} {reply : Reply}

theorem delay?_eq_none {c : SavingConfig} {n : Nat} (h : c.delay? n = none) : maxDoublings < n := by
  unfold SavingConfig.delay? at h
  split at h
  · cases h
  · omega

theorem delay?_eq_some {c : SavingConfig} {n : Nat} {delay : Int} (h : c.delay? n = some delay) :
    n ≤ maxDoublings := by
  unfold SavingConfig.delay? at h
  split at h
  · assumption
  · cases h

theorem goes_recover (m : Manager α) (now : Nat) (s : Save) (generation : Nat)
    (request : Request) (failures : Nat) {cause : RemoteError} (h : cause.isRetried = true) :
    m.Goes s ⟨generation, request, failures⟩ (some (.error cause))
      (m.recover now s generation request failures cause).manager
      (m.recover now s generation request failures cause).ended := by
  unfold recover
  by_cases hmax : m.config.maxRetries ≤ failures
  · rw [if_pos hmax]
    exact .givesUp rfl h hmax
  · rw [if_neg hmax]
    have hlt : failures < m.config.maxRetries := by omega
    cases hdelay : m.config.delay? failures with
    | none => exact .breaks (.retryOutOfRange rfl h hlt (delay?_eq_none hdelay))
    | some delay => exact .retries rfl h hlt (delay?_eq_some hdelay)

theorem goes_receive (m : Manager α) (now : Nat) (s : Save) (generation : Nat)
    (request : Request) (failures : Nat) (response : Response) :
    m.Goes s ⟨generation, request, failures⟩ (some (response.read request.endpoint))
      (m.receive now s generation request failures response).manager
      (m.receive now s generation request failures response).ended := by
  unfold receive
  cases hread : response.read request.endpoint with
  | ok answer =>
    cases answer with
    | done job doneAt =>
      dsimp only
      unfold complete
      cases hcurrent : m.isCurrent generation with
      | true => exact .completes rfl hcurrent
      | false => exact .comesLate rfl hcurrent
    | inProgress job doneAt =>
      dsimp only
      unfold keepAsking
      cases hdelay : m.config.delay? (request.next job).2 with
      | none => exact .breaks (.askOutOfRange rfl (delay?_eq_none hdelay))
      | some delay => exact .asks rfl (delay?_eq_some hdelay)
  | error cause =>
    cases cause with
    | tooDeep innermost => exact .breaks (.tooDeep rfl)
    | _ => exact goes_recover m now s generation request failures rfl

/-- **All that a step can do.** -/
theorem goes_resume (m : Manager α) (now : Nat) (s : Save) (reply : Reply) :
    (m.started s).Goes s (m.attempt s) (m.answer? s reply) (m.resume now s reply).manager
      (m.resume now s reply).ended := by
  have hsend : ∀ (n : Manager α) (generation : Nat) (request : Request) (failures : Nat),
      n.Goes s ⟨generation, request, failures⟩
        (if (!n.closed && request.isEncodable) = true ∧ reply.delay = none then
          some (reply.response.read request.endpoint) else none)
        (n.send now s generation request failures reply).manager
        (n.send now s generation request failures reply).ended := by
    intro n generation request failures
    unfold send
    cases hencodable : request.isEncodable with
    | false =>
      rw [Bool.and_false, if_neg (by simp)]
      exact .breaks (.notEncodable rfl hencodable)
    | true =>
      cases hclosed : n.closed with
      | true => exact .breaks (.closed (if_neg (by simp)) hencodable hclosed)
      | false =>
        cases hdelay : reply.delay with
        | none =>
          rw [if_pos (by simp)]
          exact goes_receive n now s generation request failures reply.response
        | some delay =>
          rw [if_neg (by simp)]
          exact .waits rfl hclosed hencodable
  cases hstage : s.stage with
  | created =>
    have hattempt : m.attempt s = ⟨m.generation + 1, .post s.data, 0⟩ := by
      rw [attempt, hstage]
    simp only [resume, started, answer?, sends, hstage, hattempt]
    exact hsend { m with generation := m.generation + 1, isSaving := true } _ (.post s.data) 0
  | waiting generation request failures response =>
    simp only [resume, started, attempt, answer?, hstage]
    exact goes_receive m now s generation request failures response
  | pausing generation request failures =>
    have hattempt : m.attempt s = ⟨generation, request, failures⟩ := by
      rw [attempt, hstage]
    simp only [resume, started, answer?, sends, hstage, hattempt]
    exact hsend m generation request failures

/-! ## What is seen of a step -/

theorem requests_finish (m : Manager α) (s : Save) (generation : Nat) (how : SaveEnd)
    (effects : List Effect) :
    (m.finish s generation how effects).effects.filterMap Effect.request? =
      effects.filterMap Effect.request? := by
  unfold finish
  dsimp only
  split <;> simp [Effect.request?]

theorem notices_finish (m : Manager α) (s : Save) (generation : Nat) (how : SaveEnd)
    (effects : List Effect) :
    (m.finish s generation how effects).effects.filterMap Effect.notice? =
      effects.filterMap Effect.notice? := by
  unfold finish
  dsimp only
  split <;> simp [Effect.notice?]

theorem requests_tell (m : Manager α) (generation : Nat) (n : Notice) :
    (m.tell generation n).filterMap Effect.request? = [] := by
  unfold tell
  split <;> rfl

theorem notices_tell {generation : Nat} (h : m.isCurrent generation = false) (n : Notice) :
    m.tell generation n = [] := by
  unfold tell
  rw [h]
  rfl

theorem requests_receive (m : Manager α) (now : Nat) (s : Save) (generation : Nat)
    (request : Request) (failures : Nat) (response : Response) :
    (m.receive now s generation request failures response).effects.filterMap Effect.request? =
      [] := by
  unfold receive complete keepAsking recover
  repeat' split
  all_goals
    simp only [requests_finish, requests_tell, pause, Effect.request?, List.filterMap_append,
      List.filterMap_cons, List.filterMap_nil, List.append_nil]

theorem notices_receive {generation : Nat} (h : m.isCurrent generation = false) (now : Nat)
    (s : Save) (request : Request) (failures : Nat) (response : Response) :
    (m.receive now s generation request failures response).effects.filterMap Effect.notice? =
      [] := by
  unfold receive complete keepAsking recover
  repeat' split
  all_goals
    simp_all [notices_finish, notices_tell, pause, Effect.notice?]

/-- What a step sends. -/
theorem requests_resume (m : Manager α) (now : Nat) (s : Save) (reply : Reply) :
    (m.resume now s reply).effects.filterMap Effect.request? =
      (m.sent? s).toList.map Attempt.request := by
  have hsend : ∀ (n : Manager α) (generation : Nat) (request : Request) (failures : Nat),
      (n.send now s generation request failures reply).effects.filterMap Effect.request? =
        if (!n.closed && request.isEncodable) = true then [request] else [] := by
    intro n generation request failures
    unfold send
    cases hencodable : request.isEncodable with
    | false => simp [requests_finish]
    | true =>
      cases hclosed : n.closed with
      | true => simp [requests_finish]
      | false =>
        cases hdelay : reply.delay with
        | none => simp [requests_receive, Effect.request?]
        | some delay => simp [Effect.request?]
  cases hstage : s.stage with
  | created =>
    simp only [resume, sent?, sends, attempt, hstage, hsend]
    split <;> simp_all [Request.isEncodable]
  | waiting generation request failures response =>
    simp only [resume, sent?, sends, hstage, requests_receive]
    simp
  | pausing generation request failures =>
    simp only [resume, sent?, sends, attempt, hstage, hsend]
    split <;> simp_all

/-- **Only the latest generation tells the user anything.** -/
theorem notices_resume (h : (m.started s).isCurrent (m.attempt s).generation = false) (now : Nat)
    (reply : Reply) : (m.resume now s reply).effects.filterMap Effect.notice? = [] := by
  have hsend : ∀ (n : Manager α) (generation : Nat) (request : Request) (failures : Nat),
      n.isCurrent generation = false →
      (n.send now s generation request failures reply).effects.filterMap Effect.notice? = [] := by
    intro n generation request failures hn
    unfold send
    cases hencodable : request.isEncodable with
    | false => simp [notices_finish]
    | true =>
      cases hclosed : n.closed with
      | true => simp [notices_finish]
      | false =>
        cases hdelay : reply.delay with
        | none =>
          simp only [Bool.not_true, Bool.false_eq_true, if_false, List.filterMap_cons,
            Effect.notice?, notices_receive hn]
        | some delay => simp [Effect.notice?]
  unfold started attempt at h
  unfold resume
  cases hstage : s.stage with
  | created =>
    rw [hstage] at h
    exact hsend _ _ _ _ h
  | waiting generation request failures response =>
    rw [hstage] at h
    exact notices_receive h now s request failures response
  | pausing generation request failures =>
    rw [hstage] at h
    exact hsend m generation request failures h

/-! ## What a step leaves alone -/

namespace Goes

variable {n : Manager α} {a : Attempt} {answer : Option (Except RemoteError Answer)}
  {ended : Option (Nat × SaveEnd)}

theorem generation (h : m.Goes s a answer n ended) : n.generation = m.generation := by
  cases h <;> rfl

theorem created (h : m.Goes s a answer n ended) : n.created = m.created := by
  cases h <;> rfl

theorem config (h : m.Goes s a answer n ended) : n.config = m.config := by
  cases h <;> rfl

theorem window (h : m.Goes s a answer n ended) : n.window = m.window := by
  cases h <;> rfl

/-- The other saves stay, and the save itself stays suspended or ends. -/
theorem saves (h : m.Goes s a answer n ended) :
    n.saves = m.others s ∨
      ∃ stage due, Stage.generation? stage = some a.generation ∧
        n.saves = m.others s ++ [{ s with stage := stage, due := due }] := by
  cases h with
  | waits => exact .inr ⟨_, _, rfl, rfl⟩
  | asks => exact .inr ⟨_, _, rfl, rfl⟩
  | retries => exact .inr ⟨_, _, rfl, rfl⟩
  | completes => exact .inl rfl
  | comesLate => exact .inl rfl
  | givesUp => exact .inl rfl
  | breaks => exact .inl rfl

theorem saves_of_ended {e : Nat × SaveEnd} (h : m.Goes s a answer n (some e)) :
    n.saves = m.others s := by
  cases h <;> rfl

end Goes

/-! ## Attempts under way -/

/-- The request of the attempt is sent now, or it was sent before. -/
def UnderWay (m : Manager α) (s : Save) : Prop :=
  m.sends s = true ∨ ∃ generation request failures response,
    s.stage = .waiting generation request failures response

theorem underWay_of_answer {answer : Except RemoteError Answer}
    (h : m.answer? s reply = some answer) : m.UnderWay s := by
  unfold answer? at h
  cases hstage : s.stage with
  | waiting generation request failures response => exact .inr ⟨_, _, _, _, hstage⟩
  | created =>
    simp only [hstage] at h
    split at h
    · rename_i hsends
      exact .inl hsends.1
    · cases h
  | pausing generation request failures =>
    simp only [hstage] at h
    split at h
    · rename_i hsends
      exact .inl hsends.1
    · cases h

theorem underWay_of_encodable (hclosed : m.closed = false)
    (h : (m.attempt s).request.isEncodable = true) : m.UnderWay s := by
  unfold UnderWay sends
  unfold attempt at h
  cases hstage : s.stage with
  | created =>
    rw [hclosed]
    exact .inl rfl
  | waiting generation request failures response => exact .inr ⟨_, _, _, _, rfl⟩
  | pausing generation request failures =>
    rw [hstage] at h
    have hencodable : request.isEncodable = true := h
    refine .inl ?_
    dsimp only
    rw [hclosed, hencodable]
    rfl

theorem closed_started (m : Manager α) (s : Save) : (m.started s).closed = m.closed := by
  unfold started
  split <;> rfl

/-- A step after which a save goes on, or ends for another reason than a fault, has an attempt
under way. -/
theorem Goes.underWay {n : Manager α} {ended : Option (Nat × SaveEnd)}
    (h : (m.started s).Goes s (m.attempt s) (m.answer? s reply) n ended)
    (hended : ∀ fault, ended ≠ some (s.number, .broken fault)) : m.UnderWay s := by
  cases h with
  | waits _ hclosed hencodable =>
    rw [closed_started] at hclosed
    exact underWay_of_encodable hclosed hencodable
  | asks hanswer => exact underWay_of_answer hanswer
  | retries hanswer => exact underWay_of_answer hanswer
  | completes hanswer => exact underWay_of_answer hanswer
  | comesLate hanswer => exact underWay_of_answer hanswer
  | givesUp hanswer => exact underWay_of_answer hanswer
  | breaks => exact absurd rfl (hended _)

theorem others_started (m : Manager α) (s t : Save) : (m.started s).others t = m.others t := by
  unfold started
  split <;> rfl

theorem created_started (m : Manager α) (s : Save) : (m.started s).created = m.created := by
  unfold started
  split <;> rfl

theorem window_started (m : Manager α) (s : Save) : (m.started s).window = m.window := by
  unfold started
  split <;> rfl

theorem config_started (m : Manager α) (s : Save) : (m.started s).config = m.config := by
  unfold started
  split <;> rfl

theorem generation_le_started (m : Manager α) (s : Save) :
    m.generation ≤ (m.started s).generation := by
  unfold started
  split
  · exact Nat.le_succ _
  · exact Nat.le_refl _

/-- A save that has started goes on in the generation that it took. -/
theorem started_of_generation? {generation : Nat}
    (h : Stage.generation? s.stage = some generation) :
    m.started s = m ∧ (m.attempt s).generation = generation := by
  unfold started attempt
  cases hstage : s.stage with
  | created =>
    rw [hstage] at h
    cases h
  | waiting g request failures response =>
    rw [hstage] at h
    exact ⟨rfl, Option.some.inj h⟩
  | pausing g request failures =>
    rw [hstage] at h
    exact ⟨rfl, Option.some.inj h⟩

end Manager

end Spreadsheet
