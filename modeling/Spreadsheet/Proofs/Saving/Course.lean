import Mathlib.Data.List.Infix
import Spreadsheet.Proofs.Saving.Steps

/-!
# The course of a save

A save posts its text and asks for its job until the server is done. Each request has its own row of
repetitions: after each failure there is a pause, at first as long as the initial one and then twice
as long each time. The questions for a job have such a row of pauses of their own.

`Course` relates what the server says, in order, to what is seen of a save and to how it ends. Its
constructors are the ways in which a request is settled after it has failed some number of times.

**Main facts.** A save succeeds if and only if a reply says that it is done (`Course.done_iff`), is
given up if and only if a request fails once more than it may be repeated (`Course.abandoned_iff`),
and the replies tell by which fault it breaks off, if at all (`Course.broken_iff`). There is a notice
for each repetition, for each reply that the save is in progress, and for the end
(`Course.notices`).
-/

namespace Spreadsheet

/-! ## Verdicts -/

/-- What a reply means to a save. -/
inductive Verdict where
  | done
  | inProgress (job : JsonText)
  /-- The request has failed and may be repeated. -/
  | failed
  /-- The body has brackets inside too many others, which breaks the save off. -/
  | tooDeep (innermost : Bracket)
  deriving DecidableEq, Repr

namespace Verdict

def ofRead : Except RemoteError Answer → Verdict
  | .ok (.done _ _) => .done
  | .ok (.inProgress job _) => .inProgress job
  | .error (.tooDeep innermost) => .tooDeep innermost
  | .error _ => .failed

/-- The job that the reply names. -/
def job? : Verdict → Option JsonText
  | .inProgress job => some job
  | _ => none

end Verdict

/-- What a response means to a save. -/
def Response.verdict (r : Response) : Verdict := .ofRead (r.read .save)

/-- A response means the same to the question for a job. -/
theorem Response.ofRead_read (r : Response) (endpoint : Endpoint) :
    Verdict.ofRead (r.read endpoint) = r.verdict := by
  unfold verdict read
  cases r with
  | failed message => rfl
  | answered code body =>
    dsimp only
    split
    · rfl
    · cases body with
      | json value => rfl
      | bytes raw =>
        unfold Body.value
        dsimp only
        split <;> rfl

theorem Reply.verdict_done : Reply.done.response.verdict = .done := by
  rw [Response.verdict, Reply.read_done]
  rfl

/-! ## Notices -/

namespace Notice

def retrying : Notice := .info "Retrying request..."

def inProgress : Notice := .info "Save in progress. Please wait..."

def saved : Notice := .success "Spreadsheet saved successfully!"

def givenUp : Notice := .error "Unable to complete the request. Please try again later."

end Notice

/-- The notice of a verdict after which a save goes on. -/
def Verdict.told : Verdict → List Notice
  | .failed => [.retrying]
  | .inProgress _ => [.inProgress]
  | _ => []

/-- The last notice of a save. -/
def SaveEnd.told : SaveEnd → List Notice
  | .done => [.saved]
  | .abandoned => [.givenUp]
  | .broken _ => []

/-! ## Courses -/

namespace SavingConfig

/-- The delay after `n` doublings. -/
def delay (c : SavingConfig) (n : Nat) : Int := c.backoff * Nat.pow 2 n

/-- How often a request is repeated at most. The delay before one more repetition would be out of
range. -/
def repetitions (c : SavingConfig) : Nat := min c.maxRetries (maxDoublings + 1)

end SavingConfig

/-- How many questions were asked when an answer to a request comes. -/
def Request.round : Request → Nat
  | .post _ => 0
  | .poll _ round => round + 1

/-- Attempts at a request that fail and after which it is repeated. -/
def repeated (c : SavingConfig) (r : Request) (n : Nat) : List Effect :=
  (List.range n).flatMap fun i => [.request r, .notify .retrying, .sleep (c.delay i)]

/-- The course of a save from a request on: what the replies mean, in order, what is seen of the
save, apart from the log, and how it ends. -/
inductive Course (c : SavingConfig) : Request → List Verdict → List Effect → SaveEnd → Prop
  /-- The server is done. -/
  | done {r : Request} {n : Nat} : r.isEncodable = true → n ≤ c.repetitions →
      Course c r (.replicate n .failed ++ [.done])
        (repeated c r n ++ [.request r, .notify .saved]) .done
  /-- The save is in progress. The next question follows after a pause. It is for the job that was
  named first. -/
  | asks {r : Request} {n : Nat} {job : JsonText} {verdicts : List Verdict} {effects : List Effect}
      {how : SaveEnd} : r.isEncodable = true → n ≤ c.repetitions → r.round ≤ maxDoublings →
      Course c (.poll (r.next job).1 r.round) verdicts effects how →
      Course c r (.replicate n .failed ++ .inProgress job :: verdicts)
        (repeated c r n ++
          .request r :: .notify .inProgress :: .sleep (c.delay r.round) :: effects) how
  /-- The request has failed too often. -/
  | givesUp {r : Request} : r.isEncodable = true → c.maxRetries = c.repetitions →
      Course c r (.replicate (c.maxRetries + 1) .failed)
        (repeated c r c.maxRetries ++ [.request r, .notify .givenUp]) .abandoned
  /-- The body cannot be read, and this is not noticed as a failure. -/
  | tooDeep {r : Request} {n : Nat} {innermost : Bracket} : r.isEncodable = true →
      n ≤ c.repetitions →
      Course c r (.replicate n .failed ++ [.tooDeep innermost]) (repeated c r n ++ [.request r])
        (.broken (.bodyTooDeep innermost))
  /-- The request names a job that cannot be put into bytes, so it is not sent. -/
  | notEncodable {r : Request} : r.isEncodable = false →
      Course c r [] [] (.broken .jobNotEncodable)
  /-- The delay before the next repetition would be out of range. -/
  | repeatedTooOften {r : Request} : r.isEncodable = true → maxDoublings + 1 < c.maxRetries →
      Course c r (.replicate (maxDoublings + 2) .failed)
        (repeated c r (maxDoublings + 1) ++ [.request r]) (.broken .delayOutOfRange)
  /-- The delay before the next question would be out of range. -/
  | askedTooOften {r : Request} {n : Nat} {job : JsonText} : r.isEncodable = true →
      n ≤ c.repetitions → maxDoublings < r.round →
      Course c r (.replicate n .failed ++ [.inProgress job])
        (repeated c r n ++ [.request r, .notify .inProgress]) (.broken .delayOutOfRange)

/-! ### Faults -/

/-- The job that a request asks for. -/
def Request.job? : Request → Option JsonText
  | .post _ => none
  | .poll job _ => some job

theorem Request.job?_ne_broken {r : Request} (h : r.isEncodable = true) (codes : List Nat) :
    r.job? ≠ some (.broken codes) := by
  cases r with
  | post data => simp [Request.job?]
  | poll job n =>
    cases job with
    | whole text => simp [Request.job?]
    | broken codes' => cases h

/-- What the server says, from a request on, when a save breaks off by a fault. -/
def BreaksOff (c : SavingConfig) (r : Request) (verdicts : List Verdict) : SaveFault → Prop
  -- It is busy too often, or a request fails too often in a row.
  | .delayOutOfRange =>
    maxDoublings + 1 < verdicts.countP (fun o => o.job?.isSome) + r.round ∨
      maxDoublings + 1 < c.maxRetries ∧ List.replicate (maxDoublings + 2) .failed <:+: verdicts
  | .bodyTooDeep innermost => .tooDeep innermost ∈ verdicts
  | .jobNotEncodable =>
    ∃ codes, r.job?.or (verdicts.findSome? Verdict.job?) = some (.broken codes)
  | .clientClosed => False

/-! ### Lists of verdicts -/

theorem not_prefix_failed {n k : Nat} {x : Verdict} {rest : List Verdict} (hx : x ≠ .failed)
    (h : n < k) : ¬ List.replicate k .failed <+: List.replicate n .failed ++ x :: rest := by
  induction n generalizing k with
  | zero =>
    obtain ⟨k, rfl⟩ := Nat.exists_eq_succ_of_ne_zero (Nat.ne_of_gt h)
    rw [List.replicate_succ, List.replicate_zero, List.nil_append, List.cons_prefix_cons]
    exact fun hp => hx hp.1.symm
  | succ n ih =>
    obtain ⟨k, rfl⟩ := Nat.exists_eq_succ_of_ne_zero (Nat.ne_of_gt (Nat.zero_lt_of_lt h))
    rw [List.replicate_succ, List.replicate_succ, List.cons_append, List.cons_prefix_cons]
    exact fun hp => ih (Nat.lt_of_succ_lt_succ h) hp.2

/-- A row of failures that is longer than the one at the front comes after it. -/
theorem infix_of_infix_failed {n k : Nat} {x : Verdict} {rest : List Verdict} (hx : x ≠ .failed)
    (h : n < k) (hin : List.replicate k .failed <:+: List.replicate n .failed ++ x :: rest) :
    List.replicate k .failed <:+: rest := by
  induction n with
  | zero =>
    rw [List.replicate_zero, List.nil_append, List.infix_cons_iff] at hin
    exact hin.resolve_left (not_prefix_failed (n := 0) hx h)
  | succ n ih =>
    rw [List.replicate_succ, List.cons_append, List.infix_cons_iff] at hin
    refine ih (Nat.lt_of_succ_lt h) (hin.resolve_left ?_)
    exact not_prefix_failed (n := n + 1) hx h

/-- Failures name no job. -/
theorem findSome?_failed (n : Nat) :
    (List.replicate n Verdict.failed).findSome? Verdict.job? = none := by
  rw [List.findSome?_eq_none_iff]
  intro x hx
  rw [List.eq_of_mem_replicate hx]
  rfl

namespace Course

variable {c : SavingConfig} {r : Request} {verdicts : List Verdict} {effects : List Effect}
  {how : SaveEnd}

theorem repetitions_le (c : SavingConfig) : c.repetitions ≤ c.maxRetries := Nat.min_le_left ..

/-- A save succeeds if and only if a reply says that it is done. -/
theorem done_iff (h : Course c r verdicts effects how) : how = .done ↔ .done ∈ verdicts := by
  induction h with
  | done => simp
  | asks _ _ _ _ ih => simp [ih]
  | givesUp => simp
  | tooDeep => simp
  | notEncodable => simp
  | repeatedTooOften => simp
  | askedTooOften => simp

/-- A save is given up if and only if a request fails once more than it may be repeated. -/
theorem abandoned_iff (h : Course c r verdicts effects how) :
    how = .abandoned ↔ List.replicate (c.maxRetries + 1) .failed <:+: verdicts := by
  -- Any other answer comes after fewer failures, and what follows it is searched next.
  have hsettled : ∀ {n : Nat} {x : Verdict} {rest : List Verdict}, n ≤ c.repetitions →
      x ≠ .failed →
      (List.replicate (c.maxRetries + 1) .failed <:+: List.replicate n .failed ++ x :: rest ↔
        List.replicate (c.maxRetries + 1) .failed <:+: rest) := by
    intro n x rest hn hx
    have hlt : n < c.maxRetries + 1 := Nat.lt_succ_of_le (hn.trans (repetitions_le c))
    refine ⟨infix_of_infix_failed hx hlt, fun hrest => hrest.trans ?_⟩
    exact ((List.suffix_cons x rest).trans (List.suffix_append _ _)).isInfix
  have hnil : ¬ List.replicate (c.maxRetries + 1) Verdict.failed <:+: [] := by
    intro hin
    cases List.eq_nil_of_infix_nil hin
  induction h with
  | done _ hn => simp [hsettled hn, hnil]
  | @asks r n job verdicts effects how _ hn _ _ ih =>
    have hother : Verdict.inProgress job ≠ .failed := by simp
    exact ih.trans (hsettled hn hother).symm
  | givesUp => simp
  | tooDeep _ hn => simp [hsettled hn, hnil]
  | notEncodable => simp [hnil]
  | repeatedTooOften _ hlt =>
    refine ⟨nofun, fun hin => ?_⟩
    have hlength := hin.length_le
    rw [List.length_replicate, List.length_replicate] at hlength
    omega
  | askedTooOften _ hn => simp [hsettled hn, hnil]

theorem notices_repeated (c : SavingConfig) (r : Request) (n : Nat) :
    (repeated c r n).filterMap Effect.notice? =
      (List.replicate n .failed).flatMap Verdict.told := by
  induction n with
  | zero => rfl
  | succ n ih =>
    unfold repeated at ih ⊢
    rw [List.range_succ, List.flatMap_append, List.filterMap_append, ih, List.replicate_succ',
      List.flatMap_append]
    rfl

/-- Unless a save breaks off, there is a notice for each repetition, for each reply that the save is
in progress, and for the end. -/
theorem notices (h : Course c r verdicts effects how) (hhow : ∀ fault, how ≠ .broken fault) :
    ∃ before last, verdicts = before ++ [last] ∧
      effects.filterMap Effect.notice? = before.flatMap Verdict.told ++ how.told := by
  induction h with
  | @done r n _ _ =>
    refine ⟨_, _, rfl, ?_⟩
    rw [List.filterMap_append, notices_repeated]
    rfl
  | @asks r n job verdicts effects how _ _ _ _ ih =>
    obtain ⟨before, last, rfl, hnotices⟩ := ih hhow
    refine ⟨.replicate n .failed ++ .inProgress job :: before, last, by simp, ?_⟩
    rw [List.filterMap_append, notices_repeated, List.flatMap_append, List.flatMap_cons]
    simp only [List.filterMap_cons, Effect.notice?, hnotices, Verdict.told, List.append_assoc,
      List.cons_append, List.nil_append]
  | givesUp =>
    refine ⟨_, _, List.replicate_succ', ?_⟩
    rw [List.filterMap_append, notices_repeated]
    rfl
  | tooDeep => exact absurd rfl (hhow _)
  | notEncodable => exact absurd rfl (hhow _)
  | repeatedTooOften => exact absurd rfl (hhow _)
  | askedTooOften => exact absurd rfl (hhow _)

/-- A body nested too deeply breaks the save off, if the request can be sent. -/
theorem of_tooDeep {innermost : Bracket} {rest : List Verdict} (h : Course c r verdicts effects how)
    (hencodable : r.isEncodable = true) (hpre : verdicts <+: .tooDeep innermost :: rest) :
    effects = [.request r] ∧ how = .broken (.bodyTooDeep innermost) := by
  have hfirst : ∀ {n : Nat} {x : Verdict} {l : List Verdict},
      List.replicate n .failed ++ x :: l <+: .tooDeep innermost :: rest →
      n = 0 ∧ x = .tooDeep innermost := by
    intro n x l hp
    cases n with
    | zero => exact ⟨rfl, (List.cons_prefix_cons.1 hp).1⟩
    | succ n => cases (List.cons_prefix_cons.1 hp).1
  cases h with
  | tooDeep =>
    obtain ⟨rfl, heq⟩ := hfirst hpre
    cases heq
    exact ⟨rfl, rfl⟩
  | notEncodable hno => rw [hno] at hencodable; cases hencodable
  | done => cases (hfirst hpre).2
  | asks => cases (hfirst hpre).2
  | askedTooOften => cases (hfirst hpre).2
  | givesUp => cases (List.cons_prefix_cons.1 hpre).1
  | repeatedTooOften => cases (List.cons_prefix_cons.1 hpre).1

/-! ### Requests -/

theorem request_of_mem_repeated {n : Nat} {q : Request} (h : .request q ∈ repeated c r n) :
    q = r := by
  obtain ⟨i, -, hi⟩ := List.mem_flatMap.1 h
  simpa using hi

/-- All questions are for the job of the first one. -/
theorem poll_of_mem {job : JsonText} {n : Nat} (h : Course c (.poll job n) verdicts effects how)
    {q : Request} (hq : .request q ∈ effects) : ∃ n, q = .poll job n := by
  generalize hr : Request.poll job n = r at h
  induction h generalizing n with
  | asks _ _ _ _ ih =>
    subst hr
    simp only [List.mem_append, List.mem_cons, reduceCtorEq, false_or, Effect.request.injEq] at hq
    rcases hq with hq | rfl | hq
    · exact ⟨n, request_of_mem_repeated hq⟩
    · exact ⟨n, rfl⟩
    · exact ih hq rfl
  | notEncodable => cases hq
  | _ =>
    subst hr
    simp only [List.mem_append, List.mem_cons, List.not_mem_nil, reduceCtorEq, or_false,
      Effect.request.injEq] at hq
    rcases hq with hq | rfl
    · exact ⟨n, request_of_mem_repeated hq⟩
    · exact ⟨n, rfl⟩

/-- What is sent is the text, and then questions for the job that the first answer names. -/
theorem request_of_mem {data : String} (h : Course c (.post data) verdicts effects how)
    {q : Request} (hq : .request q ∈ effects) :
    q = .post data ∨ ∃ job n, verdicts.findSome? Verdict.job? = some job ∧ q = .poll job n := by
  generalize hr : Request.post data = r at h
  cases h with
  | @asks _ n job verdicts effects _ _ _ _ hrest =>
    subst hr
    simp only [List.mem_append, List.mem_cons, reduceCtorEq, false_or, Effect.request.injEq] at hq
    rcases hq with hq | rfl | hq
    · exact .inl (request_of_mem_repeated hq)
    · exact .inl rfl
    · obtain ⟨n', rfl⟩ := hrest.poll_of_mem hq
      refine .inr ⟨job, n', ?_, rfl⟩
      rw [List.findSome?_append, findSome?_failed]
      rfl
  | notEncodable => cases hq
  | _ =>
    subst hr
    simp only [List.mem_append, List.mem_cons, List.not_mem_nil, reduceCtorEq, or_false,
      Effect.request.injEq] at hq
    rcases hq with hq | rfl
    · exact .inl (request_of_mem_repeated hq)
    · exact .inl rfl

/-! ### Breaking off -/

section BreaksOff

variable {fault : SaveFault} {n : Nat} {x : Verdict}

/-- Failures that are few enough do not count. -/
theorem breaksOff_settled (hn : n ≤ c.repetitions) (hx : x ≠ .failed) :
    BreaksOff c r (.replicate n .failed ++ x :: verdicts) fault ↔
      BreaksOff c r (x :: verdicts) fault := by
  have hlt : n < maxDoublings + 2 := Nat.lt_succ_of_le (hn.trans (Nat.min_le_right ..))
  have hrun : List.replicate (maxDoublings + 2) .failed <:+: .replicate n .failed ++ x :: verdicts ↔
      List.replicate (maxDoublings + 2) .failed <:+: x :: verdicts :=
    ⟨fun hin => (infix_of_infix_failed hx hlt hin).trans (List.suffix_cons x verdicts).isInfix,
      fun hin => hin.trans (List.suffix_append _ _).isInfix⟩
  cases fault with
  | delayOutOfRange =>
    unfold BreaksOff
    rw [hrun, List.countP_append, List.countP_replicate]
    simp [Verdict.job?]
  | bodyTooDeep innermost => simp [BreaksOff]
  | jobNotEncodable =>
    unfold BreaksOff
    rw [List.findSome?_append, findSome?_failed, Option.none_or]
  | clientClosed => exact Iff.rfl

/-- A reply that the save is in progress leaves it to the next question to break off. -/
theorem breaksOff_asks {job : JsonText} :
    BreaksOff c r (.inProgress job :: verdicts) fault ↔
      BreaksOff c (.poll (r.next job).1 r.round) verdicts fault := by
  cases fault with
  | delayOutOfRange =>
    have hrun : List.replicate (maxDoublings + 2) .failed <:+: .inProgress job :: verdicts ↔
        List.replicate (maxDoublings + 2) .failed <:+: verdicts := by
      rw [List.infix_cons_iff]
      exact or_iff_right (not_prefix_failed (n := 0) (by simp) (Nat.succ_pos _))
    unfold BreaksOff
    rw [hrun, List.countP_cons]
    simp only [Verdict.job?, Option.isSome_some, if_true, Request.round]
    rw [Nat.add_assoc, Nat.add_comm 1]
  | bodyTooDeep innermost => simp [BreaksOff]
  | jobNotEncodable =>
    cases r <;> simp [BreaksOff, Request.job?, Request.next, Verdict.job?, List.findSome?_cons]
  | clientClosed => exact Iff.rfl

/-- Failures alone break a save off only by the delay before one more repetition. -/
theorem breaksOff_failed (hencodable : r.isEncodable = true) (hround : r.round ≤ maxDoublings + 1) :
    BreaksOff c r (.replicate n .failed) fault ↔
      fault = .delayOutOfRange ∧ maxDoublings + 1 < c.maxRetries ∧ maxDoublings + 2 ≤ n := by
  cases fault with
  | delayOutOfRange =>
    have hrun : List.replicate (maxDoublings + 2) Verdict.failed <:+: .replicate n .failed ↔
        maxDoublings + 2 ≤ n := by
      rw [List.infix_replicate_iff, List.length_replicate]
      exact and_iff_left rfl
    have hcount : ¬ maxDoublings + 1 < 0 + r.round := by omega
    unfold BreaksOff
    rw [hrun, List.countP_replicate]
    simp only [Verdict.job?, Option.isSome_none, Bool.false_eq_true, if_false, hcount, false_or,
      true_and]
  | bodyTooDeep innermost => simp [BreaksOff]
  | jobNotEncodable =>
    unfold BreaksOff
    rw [findSome?_failed, Option.or_none]
    refine iff_of_false ?_ nofun
    rintro ⟨codes, hbroken⟩
    exact Request.job?_ne_broken hencodable codes hbroken
  | clientClosed => exact iff_of_false id nofun

/-- Of the other replies, only a body nested too deeply breaks a save off at once. -/
theorem breaksOff_last (hencodable : r.isEncodable = true) (hround : r.round ≤ maxDoublings + 1)
    (hx : x ≠ .failed) (hjob : x.job? = none) :
    BreaksOff c r [x] fault ↔ ∃ innermost, x = .tooDeep innermost ∧ fault = .bodyTooDeep innermost := by
  cases fault with
  | delayOutOfRange =>
    refine iff_of_false ?_ nofun
    rintro (hcount | ⟨-, hin⟩)
    · simp [hjob] at hcount
      omega
    · exact hx (List.mem_singleton.1 (hin.subset (List.mem_replicate.2 ⟨by simp, rfl⟩))).symm
  | bodyTooDeep innermost => simp [BreaksOff, eq_comm]
  | jobNotEncodable =>
    refine iff_of_false ?_ nofun
    simpa [BreaksOff, hjob] using Request.job?_ne_broken hencodable
  | clientClosed => exact iff_of_false id nofun

/-- A question for a job that cannot be put into bytes breaks a save off before any reply. -/
theorem breaksOff_notEncodable (hno : r.isEncodable = false) (hround : r.round ≤ maxDoublings + 1) :
    BreaksOff c r [] fault ↔ fault = .jobNotEncodable := by
  obtain ⟨codes, n, rfl⟩ : ∃ codes n, r = .poll (.broken codes) n := by
    unfold Request.isEncodable at hno
    split at hno
    · exact ⟨_, _, rfl⟩
    · cases hno
  cases fault with
  | delayOutOfRange =>
    refine iff_of_false ?_ nofun
    rintro (hcount | ⟨-, hin⟩)
    · rw [List.countP_nil, Nat.zero_add] at hcount
      exact Nat.not_lt.2 hround hcount
    · cases List.eq_nil_of_infix_nil hin
  | bodyTooDeep innermost => simp [BreaksOff]
  | jobNotEncodable => exact iff_of_true ⟨codes, rfl⟩ rfl
  | clientClosed => exact iff_of_false id nofun

/-- One question too many breaks a save off by the delay before it. -/
theorem breaksOff_tooMany {job : JsonText} (hencodable : r.isEncodable = true)
    (hlt : maxDoublings < r.round) :
    BreaksOff c r [.inProgress job] fault ↔ fault = .delayOutOfRange := by
  cases fault with
  | delayOutOfRange =>
    refine iff_of_true (.inl ?_) rfl
    simp only [List.countP_singleton, Verdict.job?, Option.isSome_some, if_true]
    omega
  | bodyTooDeep innermost => simp [BreaksOff]
  | jobNotEncodable =>
    refine iff_of_false ?_ nofun
    -- After so many questions the request is one for a job that was sent before.
    cases r with
    | post data => exact absurd hlt (Nat.not_lt_zero _)
    | poll first n =>
      rintro ⟨codes, hbroken⟩
      exact Request.job?_ne_broken hencodable codes hbroken
  | clientClosed => exact iff_of_false id nofun

/-- **What breaks a save off.** -/
theorem broken_iff (h : Course c r verdicts effects how) (hround : r.round ≤ maxDoublings + 1) :
    how = .broken fault ↔ BreaksOff c r verdicts fault := by
  induction h with
  | done hencodable hn =>
    rw [breaksOff_settled hn (by simp), breaksOff_last hencodable hround (by simp) rfl]
    simp
  | asks _ hn hle _ ih =>
    rw [breaksOff_settled hn (by simp), breaksOff_asks]
    exact ih (Nat.succ_le_succ hle)
  | givesUp hencodable hmax =>
    have hfew : c.maxRetries ≤ maxDoublings + 1 := hmax ▸ Nat.min_le_right ..
    rw [breaksOff_failed hencodable hround]
    exact iff_of_false nofun fun hmany => Nat.not_lt.2 hfew hmany.2.1
  | tooDeep hencodable hn =>
    rw [breaksOff_settled hn (by simp), breaksOff_last hencodable hround (by simp) rfl]
    simp [eq_comm]
  | notEncodable hno =>
    rw [breaksOff_notEncodable hno hround]
    simp [eq_comm]
  | repeatedTooOften hencodable hmany =>
    rw [breaksOff_failed hencodable hround]
    simp [hmany, eq_comm]
  | askedTooOften hencodable hn hlt =>
    rw [breaksOff_settled hn (by simp), breaksOff_tooMany hencodable hlt]
    simp [eq_comm]

end BreaksOff

end Course

end Spreadsheet
