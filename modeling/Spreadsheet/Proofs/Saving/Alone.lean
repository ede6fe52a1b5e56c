import Spreadsheet.Proofs.Remote.Nesting
import Spreadsheet.Proofs.Saving.Course
import Spreadsheet.Proofs.Saving.Flushes

/-!
# A save that is alone

A save that is asked for while no other save goes on is played to its end here, against any script
of replies. After each answer there is another attempt or the end (`Answered`), so the turns of the
save make a `Course`.

**Main statements.** `Alone.follows` says this from any turn on: whether the save has not started
yet, waits for an answer or pauses. `alone_follows_protocol` says it of a whole save and adds what a
course means: when the save succeeds, when it is given up, what it asks for and what the user is
told. A reply can also break a save off, so that it neither succeeds nor is given up
(`alone_tooDeep`).
-/

namespace Spreadsheet

/-- Whether an effect is a record in the log. -/
def Effect.isLog : Effect → Bool
  | .log _ => true
  | _ => false

/-- Effects without the log. -/
def unlogged (effects : List Effect) : List Effect := effects.filter fun e => !e.isLog

/-- What a save returns to the one who asked for it. A save that breaks off returns nothing. -/
def SaveEnd.returned (ticket : Nat) : SaveEnd → List Effect
  | .broken _ => []
  | how => [.saved ticket (how == .done)]

theorem unlogged_append (effects later : List Effect) :
    unlogged (effects ++ later) = unlogged effects ++ unlogged later :=
  List.filter_append ..

/-! ## Answers -/

/-- What an answer to a request leads to, after the request has failed some number of times: what is
seen, apart from the log, and the next attempt or the end. -/
inductive Answered (c : SavingConfig) (r : Request) (n : Nat) :
    Verdict → List Effect → (Request × Nat) ⊕ SaveEnd → Prop
  | done : Answered c r n .done [.notify .saved] (.inr .done)
  | asks {job : JsonText} : r.round ≤ maxDoublings →
      Answered c r n (.inProgress job) [.notify .inProgress, .sleep (c.delay r.round)]
        (.inl (.poll (r.next job).1 r.round, 0))
  | askedTooOften {job : JsonText} : maxDoublings < r.round →
      Answered c r n (.inProgress job) [.notify .inProgress] (.inr (.broken .delayOutOfRange))
  | repeats : n < c.maxRetries → n ≤ maxDoublings →
      Answered c r n .failed [.notify .retrying, .sleep (c.delay n)] (.inl (r, n + 1))
  | repeatedTooOften : n < c.maxRetries → maxDoublings < n →
      Answered c r n .failed [] (.inr (.broken .delayOutOfRange))
  | givesUp : c.maxRetries ≤ n → Answered c r n .failed [.notify .givenUp] (.inr .abandoned)
  | tooDeep {innermost : Bracket} :
      Answered c r n (.tooDeep innermost) [] (.inr (.broken (.bodyTooDeep innermost)))

namespace Answered

variable {c : SavingConfig} {r : Request} {n : Nat} {verdict : Verdict} {effects : List Effect}

/-- The last answer ends the course. -/
theorem course {how : SaveEnd} (h : Answered c r n verdict effects (.inr how))
    (hencodable : r.isEncodable = true) (hn : n ≤ c.repetitions) :
    Course c r (.replicate n .failed ++ [verdict]) (repeated c r n ++ .request r :: effects)
      how := by
  have hmax : n ≤ c.maxRetries := hn.trans (Course.repetitions_le c)
  have hdoublings : n ≤ maxDoublings + 1 := hn.trans (Nat.min_le_right ..)
  cases h with
  | done => exact .done hencodable hn
  | askedTooOften hround => exact .askedTooOften hencodable hn hround
  | repeatedTooOften hlt hout =>
    obtain rfl : n = maxDoublings + 1 := by omega
    rw [← List.replicate_succ']
    exact .repeatedTooOften hencodable hlt
  | givesUp hge =>
    obtain rfl : n = c.maxRetries := by omega
    rw [← List.replicate_succ']
    exact .givesUp hencodable (Nat.le_antisymm hn (Course.repetitions_le c))
  | tooDeep => exact .tooDeep hencodable hn

/-- Any other answer goes before the course from the next attempt on. -/
theorem course_append {r' : Request} {n' : Nat} {verdicts : List Verdict} {later : List Effect}
    {how : SaveEnd} (h : Answered c r n verdict effects (.inl (r', n')))
    (hencodable : r.isEncodable = true) (hn : n ≤ c.repetitions)
    (hcourse : Course c r' (.replicate n' .failed ++ verdicts) (repeated c r' n' ++ later) how) :
    Course c r (.replicate n .failed ++ verdict :: verdicts)
      (repeated c r n ++ .request r :: (effects ++ later)) how := by
  cases h with
  | asks hround => exact .asks hencodable hn hround hcourse
  | repeats =>
    rw [List.replicate_succ', List.append_assoc] at hcourse
    unfold repeated at hcourse ⊢
    rw [List.range_succ, List.flatMap_append, List.append_assoc] at hcourse
    exact hcourse

/-- The next attempt is within what is repeated, and can be sent if it is a repetition. -/
theorem next {r' : Request} {n' : Nat} (h : Answered c r n verdict effects (.inl (r', n')))
    (hencodable : r.isEncodable = true) :
    n' ≤ c.repetitions ∧ (0 < n' → r'.isEncodable = true) ∧ verdict ≠ .done := by
  cases h with
  | asks => exact ⟨Nat.zero_le _, nofun, nofun⟩
  | repeats hlt hle =>
    exact ⟨Nat.le_min.2 ⟨hlt, Nat.succ_le_succ hle⟩, fun _ => hencodable, nofun⟩

end Answered

namespace Manager

variable {α : Type} {m : Manager α} {s : Save} {g n ticket : Nat} {r : Request}

/-- There is one save, which somebody asked for and which is of the latest generation, and nothing
else goes on. -/
structure Single (m : Manager α) (s : Save) (g ticket : Nat) : Prop where
  saves : m.saves = [s]
  window : m.window = none
  closed : m.closed = false
  ticket : s.ticket = some ticket
  current : m.isCurrent g = true

theorem Single.others (h : m.Single s g ticket) : m.others s = [] := by
  simp [Manager.others, h.saves]

theorem Single.suspend (h : m.Single s g ticket) (stage : Stage) (due : Nat) :
    (m.suspend s stage due).Single { s with stage := stage, due := due } g ticket where
  saves := by rw [Manager.suspend, h.others, List.nil_append]
  window := h.window
  closed := h.closed
  ticket := h.ticket
  current := h.current

/-- What a step does that gets an answer: the save pauses before the next attempt, or it ends. -/
def Does (m : Manager α) (s : Save) (g ticket : Nat) (step : Step α) (effects : List Effect) :
    (Request × Nat) ⊕ SaveEnd → Prop
  | .inl (r, n) => step.ended = none ∧ unlogged step.effects = effects ∧
      ∃ due, step.manager = m.suspend s (.pausing g r n) due
  | .inr how => step.ended = some (s.number, how) ∧
      unlogged step.effects = effects ++ how.returned ticket ∧
      step.manager.saves = m.others s ∧ step.manager.window = m.window

theorem delay?_of_le {c : SavingConfig} (h : n ≤ maxDoublings) : c.delay? n = some (c.delay n) := by
  unfold SavingConfig.delay?
  exact if_pos h

theorem delay?_of_lt {c : SavingConfig} (h : maxDoublings < n) : c.delay? n = none := by
  unfold SavingConfig.delay?
  exact if_neg (Nat.not_le.2 h)

theorem does_finish {how : SaveEnd} {effects : List Effect} (hticket : s.ticket = some ticket)
    (g : Nat) : m.Does s g ticket (m.finish s g how effects) (unlogged effects) (.inr how) := by
  refine ⟨rfl, ?_, rfl, rfl⟩
  unfold finish
  rw [unlogged_append, hticket]
  cases how <;> rfl

theorem next_round (job : JsonText) : (r.next job).2 = r.round := by
  cases r <;> rfl

theorem answered_keepAsking (h : m.Single s g ticket) (now : Nat) (r : Request) (n : Nat)
    (job : JsonText) :
    ∃ effects next, Answered m.config r n (.inProgress job) effects next ∧
      m.Does s g ticket (m.keepAsking now s g (r.next job).1 (r.next job).2) effects next := by
  unfold keepAsking tell
  rw [h.current, next_round]
  by_cases hround : r.round ≤ maxDoublings
  · rw [delay?_of_le hround]
    exact ⟨_, _, .asks hround, rfl, rfl, _, rfl⟩
  · have hlt := Nat.not_le.1 hround
    rw [delay?_of_lt hlt]
    exact ⟨_, _, .askedTooOften hlt, does_finish h.ticket g⟩

theorem answered_recover (h : m.Single s g ticket) (now : Nat) (r : Request) (n : Nat)
    (cause : RemoteError) :
    ∃ effects next, Answered m.config r n .failed effects next ∧
      m.Does s g ticket (m.recover now s g r n cause) effects next := by
  unfold recover tell
  rw [h.current]
  by_cases hmax : m.config.maxRetries ≤ n
  · rw [if_pos hmax]
    exact ⟨_, _, .givesUp hmax, does_finish (m := { m with succeeded := false }) h.ticket g⟩
  · have hmore := Nat.not_le.1 hmax
    rw [if_neg hmax]
    by_cases hn : n ≤ maxDoublings
    · rw [delay?_of_le hn]
      exact ⟨_, _, .repeats hmore hn, rfl, rfl, _, rfl⟩
    · have hlt := Nat.not_le.1 hn
      rw [delay?_of_lt hlt]
      exact ⟨_, _, .repeatedTooOften hmore hlt, does_finish h.ticket g⟩

/-- **All that an answer can lead to** for a single save. -/
theorem answered_receive (h : m.Single s g ticket) (now : Nat) (r : Request) (n : Nat)
    (response : Response) :
    ∃ effects next, Answered m.config r n response.verdict effects next ∧
      m.Does s g ticket (m.receive now s g r n response) effects next := by
  rw [← response.ofRead_read r.endpoint]
  unfold receive
  cases response.read r.endpoint with
  | ok answer =>
    cases answer with
    | done job doneAt =>
      dsimp only
      unfold complete
      rw [h.current]
      exact ⟨_, _, .done,
        does_finish (m := { m with succeeded := true, lastDoneAt := doneAt }) h.ticket g⟩
    | inProgress job doneAt => exact answered_keepAsking h now r n job
  | error cause =>
    cases cause with
    | tooDeep innermost => exact ⟨_, _, .tooDeep, does_finish h.ticket g⟩
    | _ => exact answered_recover h now r n _

/-- A save that does not wait sends its request, if it can. -/
theorem resume_eq_send (h : ∀ g r n response, s.stage ≠ .waiting g r n response) (now : Nat)
    (reply : Reply) :
    m.resume now s reply = (m.started s).send now s (m.attempt s).generation
      (m.attempt s).request (m.attempt s).failures reply := by
  unfold resume started attempt
  cases hstage : s.stage with
  | created => rfl
  | pausing => rfl
  | waiting g r n response => exact absurd hstage (h g r n response)

theorem sends_eq (hclosed : m.closed = false)
    (h : ∀ g r n response, s.stage ≠ .waiting g r n response) :
    m.sends s = (m.attempt s).request.isEncodable := by
  unfold sends attempt
  rw [hclosed]
  cases hstage : s.stage with
  | created => rfl
  | pausing => rfl
  | waiting g r n response => exact absurd hstage (h g r n response)

theorem send_of_not_encodable (h : r.isEncodable = false) (m : Manager α) (now : Nat) (s : Save)
    (g n : Nat) (reply : Reply) :
    m.send now s g r n reply = m.finish s g (.broken .jobNotEncodable) [] := by
  simp [send, h]

/-- The answer to a request may come at once. -/
theorem send_of_no_delay (hclosed : m.closed = false) (hencodable : r.isEncodable = true)
    {reply : Reply} (h : reply.delay = none) (now : Nat) (s : Save) (g n : Nat) :
    m.send now s g r n reply =
      { m.receive now s g r n reply.response with
        effects := [.request r] ++ (m.receive now s g r n reply.response).effects } := by
  simp [send, hclosed, hencodable, h]

/-- Or it is waited for. -/
theorem send_of_delay (hclosed : m.closed = false) (hencodable : r.isEncodable = true)
    {reply : Reply} {delay : Nat} (h : reply.delay = some delay) (now : Nat) (s : Save)
    (g n : Nat) :
    m.send now s g r n reply =
      { manager := m.suspend s (.waiting g r n reply.response) (now + delay)
        effects := [.request r] } := by
  simp [send, hclosed, hencodable, h]

theorem saves_started (m : Manager α) (s : Save) : (m.started s).saves = m.saves := by
  unfold started
  split <;> rfl

end Manager

/-! ## Timelines -/

namespace Timeline

variable {t : Timeline (Manager (Option String))} {m : Manager (Option String)} {s : Save}
  {ticket : Nat}

/-- What was seen, apart from the log. -/
def seen {σ : Type} (t : Timeline σ) : List Effect := unlogged (t.events.map Event.effect)

/-- Plays all turns. -/
def exhaust (t : Timeline (Manager (Option String))) : Timeline (Manager (Option String)) :=
  t.run fun _ _ => true

/-- The request that a save has sent and whose answer it waits for. -/
def sent (s : Save) : List Effect :=
  match s.stage with
  | .waiting _ r _ _ => [.request r]
  | _ => []

/-- Nobody saves but one, who has a single save. -/
structure Alone (t : Timeline (Manager (Option String))) (m : Manager (Option String)) (s : Save)
    (ticket : Nat) : Prop where
  savers : t.savers = [m]
  single : (m.started s).Single s (m.attempt s).generation ticket
  repetitions : (m.attempt s).failures ≤ m.config.repetitions
  encodable : 0 < (m.attempt s).failures ∨ sent s ≠ [] → (m.attempt s).request.isEncodable = true

namespace Alone

theorem saves (h : t.Alone m s ticket) : m.saves = [s] :=
  (Manager.saves_started m s).symm.trans h.single.saves

theorem window (h : t.Alone m s ticket) : m.window = none :=
  (Manager.window_started m s).symm.trans h.single.window

theorem closed (h : t.Alone m s ticket) : m.closed = false :=
  (Manager.closed_started m s).symm.trans h.single.closed

end Alone

/-- What the replies of a script mean, after which the server says that the save is done. -/
def answers (script : List Reply) : List Verdict := script.map (·.response.verdict) ++ [.done]

theorem answers_cons (reply : Reply) (script : List Reply) :
    answers (reply :: script) = reply.response.verdict :: answers script := rfl

theorem singleton_prefix_answers (script : List Reply) :
    [(script.headD .done).response.verdict] <+: answers script := by
  cases script with
  | nil => rw [List.headD_nil, Reply.verdict_done]; exact List.prefix_rfl
  | cons reply script => exact List.prefix_append [_] _

theorem cons_prefix_answers {script : List Reply} {verdicts : List Verdict}
    (hother : (script.headD .done).response.verdict ≠ .done)
    (h : verdicts <+: answers script.tail) :
    (script.headD .done).response.verdict :: verdicts <+: answers script := by
  cases script with
  | nil => exact absurd Reply.verdict_done hother
  | cons reply script => exact List.cons_prefix_cons.2 ⟨rfl, h⟩

/-- What the replies mean that a save is still to get. -/
def heard (s : Save) (script : List Reply) : List Verdict :=
  match s.stage with
  | .waiting _ _ _ response => response.verdict :: answers script
  | _ => answers script

theorem Alone.next? (h : t.Alone m s ticket) : t.next? = some (s.due, 0, some s) := by
  unfold Timeline.next? turns turnsOf
  rw [h.savers]
  simp [Saver.manager, h.saves, h.window, earliest?]

theorem savers_apply (h : t.savers = [m]) (step : Manager.Step (Option String)) :
    (t.apply 0 m step).savers = [step.manager] := by
  show t.savers.set 0 step.manager = _
  rw [h]
  rfl

theorem ended_apply (t : Timeline (Manager (Option String))) (m : Manager (Option String))
    (step : Manager.Step (Option String)) :
    (t.apply 0 m step).ended = t.ended ++ step.ended.toList.map fun e => (0, e) := rfl

theorem seen_apply (t : Timeline (Manager (Option String))) (m : Manager (Option String))
    (step : Manager.Step (Option String)) :
    (t.apply 0 m step).seen = t.seen ++ unlogged step.effects := by
  unfold seen
  rw [← unlogged_append]
  simp [apply, emit, Function.comp_def]

/-- The turn of a lone save. -/
theorem Alone.play (h : t.Alone m s ticket) :
    t.play s.due 0 (some s) = ({ t with
        now := max t.now s.due
        script := if m.sends s then t.script.tail else t.script } :
      Timeline (Manager (Option String))).apply 0 m
        (m.resume (max t.now s.due) s (t.script.headD .done)) := by
  unfold Timeline.play
  rw [h.savers]
  rfl

theorem Alone.exhaust (h : t.Alone m s ticket) :
    t.exhaust = (t.play s.due 0 (some s)).exhaust := by
  unfold Timeline.exhaust
  rw [run_of_some h.next?, if_pos rfl]

/-- A timeline on which no save is suspended has ended. -/
theorem exhaust_of_nil (hsavers : t.savers = [m]) (hsaves : m.saves = [])
    (hwindow : m.window = none) : t.exhaust = t := by
  refine run_of_none ?_
  unfold next? turns turnsOf
  rw [hsavers]
  simp [Saver.manager, hsaves, hwindow, earliest?]

/-- A timeline ends with the course of a save from a request on that has failed some number of
times. Some of the effects were seen before. -/
def Ends (t : Timeline (Manager (Option String))) (c : SavingConfig) (r : Request) (n : Nat)
    (replies : List Verdict) (before seen : List Effect) (ended : List (Nat × Nat × SaveEnd))
    (number ticket : Nat) : Prop :=
  ∃ verdicts effects how, verdicts <+: replies ∧
    Course c r (.replicate n .failed ++ verdicts) (repeated c r n ++ (before ++ effects)) how ∧
    t.exhaust.seen = seen ++ effects ++ how.returned ticket ∧
    t.exhaust.ended = ended ++ [(0, number, how)]

/-- The course of a lone save that is still to come. -/
def Follows (t : Timeline (Manager (Option String))) (m : Manager (Option String)) (s : Save)
    (ticket : Nat) : Prop :=
  t.Ends m.config (m.attempt s).request (m.attempt s).failures (heard s t.script) (sent s) t.seen
    t.ended s.number ticket

/-- A step with what was seen just before it. -/
def after (before : List Effect) (step : Manager.Step (Option String)) :
    Manager.Step (Option String) :=
  { step with effects := before ++ step.effects }

/-- What the turns from a timeline on are to say. -/
def FollowsLater (t : Timeline (Manager (Option String))) (ticket : Nat) : Prop :=
  ∀ m s, t.Alone m s ticket → t.Follows m s ticket

variable {u : Timeline (Manager (Option String))} {m₀ : Manager (Option String)} {g n now : Nat}
  {r : Request}

/-- From an answer on, the course is what the answer leads to and what the turns after it say. -/
theorem follows_answered {response : Response} (before : List Effect) (replies : List Verdict)
    (hbefore : unlogged before = before) (hsavers : u.savers = [m₀]) (h : m.Single s g ticket)
    (hn : n ≤ m.config.repetitions) (hencodable : r.isEncodable = true)
    (hlast : [response.verdict] <+: replies)
    (hmore : response.verdict ≠ .done → ∀ verdicts,
      verdicts <+: answers u.script → response.verdict :: verdicts <+: replies)
    (ih : (u.apply 0 m₀ (after before (m.receive now s g r n response))).FollowsLater ticket) :
    (u.apply 0 m₀ (after before (m.receive now s g r n response))).Ends m.config r n replies
      [.request r] (u.seen ++ before) u.ended s.number ticket := by
  obtain ⟨effects, next, hanswered, hdoes⟩ := Manager.answered_receive h now r n response
  generalize m.receive now s g r n response = step at *
  have hsavers' := savers_apply hsavers (after before step)
  have hended' := ended_apply u m₀ (after before step)
  have hseen' := seen_apply u m₀ (after before step)
  rw [after, unlogged_append, hbefore] at hseen'
  cases next with
  | inr how =>
    obtain ⟨hend, hseen, hnone, hstill⟩ := hdoes
    unfold Ends
    rw [exhaust_of_nil hsavers' (hnone.trans h.others) (hstill.trans h.window)]
    refine ⟨_, _, how, hlast, hanswered.course hencodable hn, ?_, ?_⟩
    · rw [after, hseen', hseen]
      simp only [List.append_assoc]
    · rw [hended', after, hend]
      rfl
  | inl next =>
    obtain ⟨r', n'⟩ := next
    obtain ⟨hgoes, hseen, due, hsuspend⟩ := hdoes
    obtain ⟨hn', hencodable', hother⟩ := hanswered.next hencodable
    have halone : (u.apply 0 m₀ (after before step)).Alone
        (m.suspend s (.pausing g r' n') due)
        { s with stage := .pausing g r' n', due := due } ticket := by
      refine ⟨?_, h.suspend _ _, hn', fun hsent =>
        hencodable' (hsent.resolve_right fun hno => hno rfl)⟩
      rw [← hsuspend]
      exact hsavers'
    obtain ⟨verdicts, later, how, hpre, hcourse, hlater, hendlater⟩ := ih _ _ halone
    have hrest : Course m.config r' (.replicate n' .failed ++ verdicts)
        (repeated m.config r' n' ++ later) how := hcourse
    refine ⟨_, effects ++ later, how, hmore hother verdicts hpre,
      hanswered.course_append hencodable hn hrest, ?_, ?_⟩
    · rw [hlater, after, hseen', hseen]
      simp only [List.append_assoc]
    · rw [hendlater, hended', after, hgoes]
      simp only [Option.toList_none, List.map_nil, List.append_nil]

/-- From a request that is to be sent on. -/
theorem follows_send {script : List Reply} (hsavers : u.savers = [m₀]) (h : m.Single s g ticket)
    (hn : n ≤ m.config.repetitions) (hencodable : 0 < n → r.isEncodable = true)
    (hscript : u.script = if r.isEncodable then script.tail else script)
    (ih : (u.apply 0 m₀ (m.send now s g r n (script.headD .done))).FollowsLater ticket) :
    (u.apply 0 m₀ (m.send now s g r n (script.headD .done))).Ends m.config r n
      (answers script) [] u.seen u.ended s.number ticket := by
  cases hsendable : r.isEncodable with
  | false =>
    obtain rfl : n = 0 := by
      refine Nat.eq_zero_of_not_pos fun hpos => ?_
      rw [hencodable hpos] at hsendable
      cases hsendable
    unfold Ends
    rw [Manager.send_of_not_encodable hsendable,
      exhaust_of_nil (savers_apply hsavers _) h.others h.window]
    refine ⟨[], [], _, List.nil_prefix, .notEncodable hsendable, ?_, rfl⟩
    rw [seen_apply, List.append_assoc]
    rfl
  | true =>
    rw [hsendable, if_pos rfl] at hscript
    cases hdelay : (script.headD .done).delay with
    | none =>
      rw [Manager.send_of_no_delay h.closed hsendable hdelay] at ih ⊢
      obtain ⟨verdicts, effects, how, hpre, hcourse, hseen, hended⟩ :=
        follows_answered [.request r] _ rfl hsavers h hn hsendable (singleton_prefix_answers script)
          (fun hother verdicts hpre => cons_prefix_answers hother (hscript ▸ hpre)) ih
      refine ⟨verdicts, .request r :: effects, how, hpre, hcourse, hseen.trans ?_, hended⟩
      rw [List.append_assoc u.seen, List.singleton_append]
    | some delay =>
      rw [Manager.send_of_delay h.closed hsendable hdelay] at ih ⊢
      obtain ⟨verdicts, effects, how, hpre, hcourse, hseen, hended⟩ :=
        ih _ { s with stage := .waiting g r n (script.headD .done).response, due := now + delay }
          ⟨savers_apply hsavers _, h.suspend _ _, hn, fun _ => hsendable⟩
      refine ⟨verdicts, .request r :: effects, how, ?_, hcourse, ?_, ?_⟩
      · -- Without a script the reply comes at once.
        cases script with
        | nil => cases hdelay
        | cons reply script =>
          rw [List.tail_cons] at hscript
          rw [answers_cons, ← hscript]
          exact hpre
      · rw [hseen, seen_apply, List.append_assoc u.seen]
        rfl
      · rw [hended, ended_apply]
        simp only [Option.toList_none, List.map_nil, List.append_nil]

/-- The turn of a save that has waited for an answer. -/
theorem Alone.follows_received (h : t.Alone m s ticket) {response : Response}
    (hstage : s.stage = .waiting g r n response)
    (ih : (t.play s.due 0 (some s)).FollowsLater ticket) : t.Follows m s ticket := by
  have hattempt : m.attempt s = ⟨g, r, n⟩ := by rw [Manager.attempt, hstage]
  have hstarted : m.started s = m := by rw [Manager.started, hstage]
  have hsent : sent s = [.request r] := by rw [sent, hstage]
  have hheard : heard s t.script =
      response.verdict :: answers t.script := by
    rw [heard, hstage]
  have hsends : m.sends s = false := by simp [Manager.sends, hstage]
  have hresume : m.resume (max t.now s.due) s (t.script.headD .done) =
      m.receive (max t.now s.due) s g r n response := by rw [Manager.resume, hstage]
  have hsingle := h.single
  have hn := h.repetitions
  have hencodable := h.encodable (.inr (by simp [hsent]))
  rw [hattempt] at hsingle hn hencodable
  rw [hstarted] at hsingle
  rw [h.play, hresume, hsends, if_neg Bool.false_ne_true] at ih
  unfold Follows Ends
  rw [h.exhaust, h.play, hresume, hsends, if_neg Bool.false_ne_true, hattempt, hheard, hsent]
  obtain ⟨verdicts, effects, how, hpre, hcourse, hseen, hended⟩ :=
    follows_answered (u := { t with now := max t.now s.due }) [] _ rfl h.savers
      hsingle hn hencodable (List.prefix_append [_] _)
      (fun _ _ hpre => (List.cons_prefix_cons.2 ⟨rfl, hpre⟩)) ih
  refine ⟨verdicts, effects, how, hpre, hcourse, hseen.trans ?_, hended⟩
  rw [List.append_nil]
  rfl

/-- The turn of a save that sends its request, or that cannot send it. -/
theorem Alone.follows_sent (h : t.Alone m s ticket)
    (hwaits : ∀ g r n response, s.stage ≠ .waiting g r n response)
    (ih : (t.play s.due 0 (some s)).FollowsLater ticket) : t.Follows m s ticket := by
  have hsent : sent s = [] := by
    unfold sent
    split
    · rename_i hstage
      exact absurd hstage (hwaits _ _ _ _)
    · rfl
  have hheard : heard s t.script = answers t.script := by
    unfold heard
    split
    · rename_i hstage
      exact absurd hstage (hwaits _ _ _ _)
    · rfl
  have hn := h.repetitions
  rw [h.play, Manager.resume_eq_send hwaits, Manager.sends_eq h.closed hwaits] at ih
  unfold Follows Ends
  rw [h.exhaust, h.play, Manager.resume_eq_send hwaits, Manager.sends_eq h.closed hwaits, hheard,
    hsent]
  rw [← Manager.config_started m s] at hn ⊢
  exact follows_send
    (u := { t with
      now := max t.now s.due
      script := if (m.attempt s).request.isEncodable then t.script.tail else t.script })
    h.savers h.single hn (fun hpos => h.encodable (.inl hpos)) rfl ih

/-- **A lone save follows a course.** The induction is on the turns. -/
theorem Alone.follows (h : t.Alone m s ticket) : t.Follows m s ticket := by
  induction t using @Timeline.run.induct (Manager (Option String)) (Option String) _
    (fun _ _ => true) generalizing m s with
  | case1 t hnone =>
    rw [h.next?] at hnone
    cases hnone
  | case3 t due place turn _ hstop => exact absurd rfl hstop
  | case2 t due place turn hnext _ ih =>
    have hturn := h.next?.symm.trans hnext
    rw [Option.some.injEq, Prod.mk.injEq, Prod.mk.injEq] at hturn
    obtain ⟨rfl, rfl, rfl⟩ := hturn
    by_cases hwaits : ∃ g r n response, s.stage = .waiting g r n response
    · obtain ⟨g, r, n, response, hstage⟩ := hwaits
      exact h.follows_received hstage fun _ _ => ih
    · exact h.follows_sent (fun g r n response hstage => hwaits ⟨g, r, n, response, hstage⟩)
        fun _ _ => ih

end Timeline

/-! ## The protocol -/

/-- What a save that is alone does. -/
structure Protocol (c : SavingConfig) (data : String) (verdicts : List Verdict)
    (effects : List Effect) (how : SaveEnd) : Prop where
  course : Course c (.post data) verdicts effects how
  /-- What is sent is the text, and then questions for the job that the first answer names. -/
  requests : ∀ q, .request q ∈ effects →
    q = .post data ∨ ∃ job n, verdicts.findSome? Verdict.job? = some job ∧ q = .poll job n
  done_iff : how = .done ↔ .done ∈ verdicts
  abandoned_iff : how = .abandoned ↔ List.replicate (c.maxRetries + 1) .failed <:+: verdicts
  /-- There is a notice for each repetition, for each reply that the save is in progress, and for
  the end. -/
  notices : (∀ fault, how ≠ .broken fault) → ∃ before last, verdicts = before ++ [last] ∧
    effects.filterMap Effect.notice? = before.flatMap Verdict.told ++ how.told
  /-- If all delays are in range, only a body nested too deeply or a job that cannot be put into
  bytes breaks the save off. -/
  ends : c.maxRetries ≤ maxDoublings + 1 →
    verdicts.countP (fun o => o.job?.isSome) ≤ maxDoublings + 1 →
    (∀ innermost, .tooDeep innermost ∉ verdicts) →
    (∀ codes, .inProgress (.broken codes) ∉ verdicts) → how = .done ∨ how = .abandoned

theorem Course.protocol {c : SavingConfig} {data : String} {verdicts : List Verdict}
    {effects : List Effect} {how : SaveEnd} (h : Course c (.post data) verdicts effects how) :
    Protocol c data verdicts effects how where
  course := h
  requests := fun _ => h.request_of_mem
  done_iff := h.done_iff
  abandoned_iff := h.abandoned_iff
  notices := h.notices
  ends := by
    intro hmax hcount hdeep hcodes
    cases how with
    | done => exact .inl rfl
    | abandoned => exact .inr rfl
    | broken fault =>
      have hbreaks := (h.broken_iff (Nat.zero_le _)).1 rfl
      cases fault with
      | delayOutOfRange =>
        rcases hbreaks with hcount' | ⟨hmax', -⟩
        · exact absurd hcount (Nat.not_le.2 hcount')
        · exact absurd hmax (Nat.not_le.2 hmax')
      | bodyTooDeep innermost => exact absurd hbreaks (hdeep innermost)
      | jobNotEncodable =>
        obtain ⟨codes, hjob⟩ := hbreaks
        obtain ⟨x, hx, hnamed⟩ := List.exists_of_findSome?_eq_some hjob
        cases x with
        | inProgress job =>
          cases hnamed
          exact absurd hx (hcodes codes)
        | _ => cases hnamed
      | clientClosed => exact hbreaks.elim

/-- A manager with nothing to do, whose connection is open. -/
structure Manager.Idle {α : Type} (m : Manager α) : Prop where
  window : m.window = none
  saves : m.saves = []
  closed : m.closed = false

namespace Timeline

variable {m : Manager (Option String)}

/-- The timeline of a save that is asked for, once it has ended. -/
def alone (m : Manager (Option String)) (now ticket : Nat) (data : String) (script : List Reply) :
    Timeline (Manager (Option String)) :=
  exhaust { now := now, script := script, savers := [m.create now (some ticket) data] }

theorem alone_create (h : m.Idle) (now ticket : Nat) (data : String) (script : List Reply) :
    Alone { now := now, script := script, savers := [m.create now (some ticket) data] }
      (m.create now (some ticket) data) ⟨m.created, some ticket, data, .created, now⟩ ticket where
  savers := rfl
  single :=
    { saves := by
        show m.saves ++ _ = _
        rw [h.saves, List.nil_append]
      window := h.window
      closed := h.closed
      ticket := rfl
      current := beq_self_eq_true (m.generation + 1) }
  repetitions := Nat.zero_le _
  encodable := fun _ => rfl

/-- **A save that is alone follows the protocol**, whatever the server says. The replies after the
script say that the save is done. -/
theorem alone_follows_protocol (h : m.Idle) (now ticket : Nat) (data : String)
    (script : List Reply) :
    ∃ verdicts effects how, verdicts <+: answers script ∧
      Protocol m.config data verdicts effects how ∧
      (alone m now ticket data script).seen = effects ++ how.returned ticket ∧
      (alone m now ticket data script).ended = [(0, m.created, how)] := by
  obtain ⟨verdicts, effects, how, hpre, hcourse, hseen, hended⟩ :=
    (alone_create h now ticket data script).follows
  exact ⟨verdicts, effects, how, hpre, hcourse.protocol, hseen, hended⟩

/-- The connection is down once, and then the server is busy. -/
def outage : List Reply :=
  [⟨none, .failed "down"⟩,
    ⟨some 300, .answered 200
      (.json (.object [("status", .string "IN_PROGRESS"), ("id", .string "7")]))⟩]

theorem outage_follows_protocol :
    ∃ verdicts effects how, verdicts <+: [.failed, .inProgress (.whole "7"), .done] ∧
      Protocol {} "1,2" verdicts effects how ∧
      (alone { config := {} } 0 0 "1,2" outage).seen = effects ++ how.returned 0 ∧
      (alone { config := {} } 0 0 "1,2" outage).ended = [(0, 0, how)] :=
  alone_follows_protocol (m := { config := {} }) ⟨rfl, rfl, rfl⟩ 0 0 "1,2" outage

/-- A body nested too deeply breaks a save off at once. The request is not repeated, and the user is
told nothing. -/
theorem alone_tooDeep (h : m.Idle) (now ticket : Nat) (data : String) {reply : Reply}
    {innermost : Bracket} (hreply : reply.response.verdict = .tooDeep innermost)
    (script : List Reply) :
    (alone m now ticket data (reply :: script)).seen = [.request (.post data)] ∧
      (alone m now ticket data (reply :: script)).ended =
        [(0, m.created, .broken (.bodyTooDeep innermost))] := by
  obtain ⟨verdicts, effects, how, hpre, hcourse, hseen, hended⟩ :=
    (alone_create h now ticket data (reply :: script)).follows
  have hheard : verdicts <+: .tooDeep innermost :: answers script := by
    rw [← hreply, ← answers_cons]
    exact hpre
  obtain ⟨rfl, rfl⟩ := hcourse.of_tooDeep rfl hheard
  exact ⟨hseen, hended⟩

/-- A body that stands for nothing is a failure of the request, but one of too many brackets is not
given up after the last repetition. -/
theorem nested_not_given_up :
    (alone { config := { maxRetries := 0 } } 0 0 "x"
        [⟨none, .answered 200 (.bytes (.replicate 100000 0x5b))⟩]).seen =
      [.request (.post "x")] ∧
    (alone { config := { maxRetries := 0 } } 0 0 "x"
        [⟨none, .answered 200 (.bytes (.replicate 100000 0x5b))⟩]).ended =
      [(0, 0, .broken (.bodyTooDeep .array))] := by
  refine alone_tooDeep (m := { config := { maxRetries := 0 } }) ⟨rfl, rfl, rfl⟩ 0 0 "x" ?_ []
  rw [Response.verdict, Response.read_nested (by decide) (by decide)]
  rfl

end Timeline

end Spreadsheet
