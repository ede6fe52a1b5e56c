import Spreadsheet.Proofs.Saving.Alone
import Spreadsheet.Proofs.Saving.Superseded

/-!
# A busy server

As long as the server is busy, a save asks for its job again, after a delay that doubles each time.
There is no limit to how often it asks, but there is one to how often a delay can double.

**Theorem (`asks_until_out_of_range`).** A save that is alone is done if the server is busy for no more
than `maxDoublings` questions, whatever the delays are. If it is busy for longer, the save breaks off
(`busy_too_long`). What the replies are decides by which fault a save breaks off, if at all.
-/

namespace Spreadsheet

/-- The end of a save whose server is done after it was busy for `n` questions. -/
def SaveEnd.afterBusy (n : Nat) : SaveEnd :=
  if n ≤ maxDoublings then .done else .broken .delayOutOfRange

/-! ## Replies of a busy server -/

section Replies

variable {verdicts : List Verdict} {job : JsonText} {jobs : List JsonText} {k : Nat}

theorem countP_inProgress (jobs : List JsonText) :
    (jobs.map Verdict.inProgress).countP (fun o => o.job?.isSome) = jobs.length := by
  simp [List.countP_map, Function.comp_def, Verdict.job?]

/-- A busy server, which is done later, says nothing else. -/
theorem cases_of_busy (h : verdicts <+: jobs.map .inProgress ++ .replicate k .done)
    {x : Verdict} (hx : x ∈ verdicts) : (∃ job, x = .inProgress job) ∨ x = .done := by
  rcases List.mem_append.1 (h.subset hx) with hx | hx
  · obtain ⟨job, -, rfl⟩ := List.mem_map.1 hx
    exact .inl ⟨job, rfl⟩
  · exact .inr (List.eq_of_mem_replicate hx)

theorem not_failed_of_busy (h : verdicts <+: jobs.map .inProgress ++ .replicate k .done) (n : Nat) :
    ¬ List.replicate (n + 1) .failed <:+: verdicts := by
  intro hin
  have hfail := cases_of_busy h (hin.subset (List.mem_replicate.2 ⟨Nat.succ_ne_zero n, rfl⟩))
  simp at hfail

theorem busy_le (h : verdicts <+: jobs.map .inProgress ++ .replicate k .done) :
    verdicts.countP (fun o => o.job?.isSome) ≤ jobs.length := by
  have hcount := h.sublist.countP_le (p := fun o : Verdict => o.job?.isSome)
  rwa [List.countP_append, countP_inProgress, List.countP_replicate, if_neg (by decide),
    Nat.add_zero] at hcount

/-- That the server is done comes after all replies that it is busy. -/
theorem le_busy (h : verdicts <+: jobs.map .inProgress ++ .replicate k .done)
    (hdone : .done ∈ verdicts) : jobs.length ≤ verdicts.countP fun o => o.job?.isSome := by
  have hall : jobs.map .inProgress <+: verdicts := by
    rcases List.prefix_or_prefix_of_prefix h (List.prefix_append _ _) with hshort | hlong
    · have hearly := hshort.subset hdone
      simp at hearly
    · exact hlong
  rw [← countP_inProgress jobs]
  exact hall.sublist.countP_le

/-- The job that is named first can be named in a question. -/
theorem findSome?_of_busy (h : verdicts <+: (job :: jobs).map .inProgress ++ .replicate k .done)
    (hjob : (Request.poll job 0).isEncodable = true) (codes : List Nat) :
    verdicts.findSome? Verdict.job? ≠ some (.broken codes) := by
  intro hfirst
  cases verdicts with
  | nil => cases hfirst
  | cons x verdicts =>
    obtain ⟨rfl, -⟩ := List.cons_prefix_cons.1 h
    cases hfirst
    cases hjob

end Replies

namespace Course

variable {c : SavingConfig} {verdicts : List Verdict} {effects : List Effect} {how : SaveEnd}

/-- A save whose server is busy, and then done, breaks off only if the server is busy for too
long. -/
theorem afterBusy {data : String} {job : JsonText} {jobs : List JsonText} {k : Nat}
    (h : Course c (.post data) verdicts effects how)
    (hjob : (Request.poll job 0).isEncodable = true)
    (hpre : verdicts <+: (job :: jobs).map .inProgress ++ .replicate k .done) :
    how = .afterBusy jobs.length := by
  have hbreaks : ∀ fault, how = .broken fault ↔ BreaksOff c (.post data) verdicts fault :=
    fun _ => h.broken_iff (Nat.zero_le _)
  unfold SaveEnd.afterBusy
  cases how with
  | done =>
    have hcount := le_busy hpre (h.done_iff.1 rfl)
    have hrange : ¬ BreaksOff c (.post data) verdicts .delayOutOfRange := by
      rw [← hbreaks]
      exact nofun
    have hle : jobs.length ≤ maxDoublings := by
      by_contra hlt
      refine hrange (.inl (Nat.lt_of_lt_of_le ?_ (Nat.le_add_right _ _)))
      rw [List.length_cons] at hcount
      omega
    rw [if_pos hle]
  | abandoned => exact absurd (h.abandoned_iff.1 rfl) (not_failed_of_busy hpre _)
  | broken fault =>
    have hbroken := (hbreaks fault).1 rfl
    cases fault with
    | delayOutOfRange =>
      rcases hbroken with hmany | ⟨-, hin⟩
      · have hcount := busy_le hpre
        have hround : (Request.post data).round = 0 := rfl
        have hlt : ¬ jobs.length ≤ maxDoublings := by
          rw [List.length_cons] at hcount
          omega
        rw [if_neg hlt]
      · exact absurd hin (not_failed_of_busy hpre _)
    | bodyTooDeep innermost =>
      have hdeep := cases_of_busy hpre hbroken
      simp at hdeep
    | jobNotEncodable =>
      obtain ⟨codes, hfirst⟩ := hbroken
      exact absurd hfirst (findSome?_of_busy hpre hjob codes)
    | clientClosed => exact hbroken.elim

end Course

namespace Timeline

variable {m : Manager (Option String)}

/-- A save that is alone outlasts a server that is busy for `jobs.length` questions, unless that is
too often. -/
theorem alone_busy (h : m.Idle) (now ticket : Nat) (data : String) {script : List Reply}
    {job : JsonText} {jobs : List JsonText} (hjob : (Request.poll job 0).isEncodable = true)
    (hscript : script.map (·.response.verdict) = (job :: jobs).map .inProgress ++ [.done]) :
    ∃ effects, (alone m now ticket data script).seen =
        effects ++ (SaveEnd.afterBusy jobs.length).returned ticket ∧
      (alone m now ticket data script).ended = [(0, m.created, .afterBusy jobs.length)] := by
  obtain ⟨verdicts, effects, how, hpre, hcourse, hseen, hended⟩ :=
    (alone_create h now ticket data script).follows
  have hanswers : answers script = (job :: jobs).map .inProgress ++ .replicate 2 .done := by
    rw [answers, hscript, List.append_assoc]
    rfl
  have hheard : verdicts <+: answers script := hpre
  rw [hanswers] at hheard
  have hcourse' : Course m.config (.post data) verdicts effects how := hcourse
  obtain rfl := hcourse'.afterBusy hjob hheard
  exact ⟨effects, hseen, hended⟩

/-- **A save asks for as long as the next delay is in range.** If the server is busy when the text
is posted and for `jobs.length` questions after that, and then done, a save that is alone is done
unless the delay has to double too often. In general the replies that a save hears tell by which
fault it breaks off, and with other saves, or on a closed connection, each step does so for a cause
of its own attempt. -/
theorem asks_until_out_of_range (h : m.Idle) (now ticket : Nat) (data : String) :
    (∀ (script : List Reply) (job : JsonText) (jobs : List JsonText),
      (Request.poll job 0).isEncodable = true →
      script.map (·.response.verdict) = (job :: jobs).map .inProgress ++ [.done] →
      ∃ effects, (alone m now ticket data script).seen =
          effects ++ (SaveEnd.afterBusy jobs.length).returned ticket ∧
        (alone m now ticket data script).ended = [(0, m.created, .afterBusy jobs.length)]) ∧
    (∀ script : List Reply, ∃ verdicts effects how, verdicts <+: answers script ∧
      (alone m now ticket data script).seen = effects ++ how.returned ticket ∧
      (alone m now ticket data script).ended = [(0, m.created, how)] ∧
      ∀ fault, how = .broken fault ↔ BreaksOff m.config (.post data) verdicts fault) ∧
    ∀ (n : Manager (Option String)) (s : Save) (moment : Nat) (reply : Reply) (fault : SaveFault),
      (n.resume moment s reply).ended = some (s.number, .broken fault) ↔
        (n.started s).Breaks (n.attempt s) (n.answer? s reply) fault := by
  refine ⟨fun script job jobs hjob hscript => alone_busy h now ticket data hjob hscript,
    fun script => ?_, fun n s moment reply => (Manager.goes_resume n moment s reply).broken_iff⟩
  obtain ⟨verdicts, effects, how, hpre, hcourse, hseen, hended⟩ :=
    (alone_create h now ticket data script).follows
  have hcourse' : Course m.config (.post data) verdicts effects how := hcourse
  exact ⟨verdicts, effects, how, hpre, hseen, hended, fun fault => hcourse'.broken_iff (Nat.zero_le _)⟩

/-- A reply that the save is in progress. -/
def busy : Reply :=
  ⟨none, .answered 200 (.json (.object [("status", .string "IN_PROGRESS"), ("id", .string "7")]))⟩

/-- Without any delay, a server that is busy for two questions. -/
theorem busy_twice_done :
    ({ config := { backoff := 0 } } : Manager (Option String)).Idle ∧
      (Request.poll (.whole "7") 0).isEncodable = true ∧
      [busy, busy, busy, .done].map (·.response.verdict) =
        ([.whole "7", .whole "7", .whole "7"] : List JsonText).map .inProgress ++ [.done] ∧
      ∃ effects,
        (alone { config := { backoff := 0 } } 0 1 "x" [busy, busy, busy, .done]).seen =
          effects ++ SaveEnd.done.returned 1 ∧
        (alone { config := { backoff := 0 } } 0 1 "x" [busy, busy, busy, .done]).ended =
          [(0, 0, .done)] := by
  have hscript : [busy, busy, busy, .done].map (·.response.verdict) =
      ([.whole "7", .whole "7", .whole "7"] : List JsonText).map .inProgress ++ [.done] := by
    rw [List.map_cons, List.map_cons, List.map_cons, List.map_cons, Reply.verdict_done]
    rfl
  exact ⟨⟨rfl, rfl, rfl⟩, rfl, hscript,
    (asks_until_out_of_range (m := { config := { backoff := 0 } }) ⟨rfl, rfl, rfl⟩ 0 1 "x").1
      _ (.whole "7") [.whole "7", .whole "7"] rfl hscript⟩

/-- A save does not outlast every server that is busy, even if no delay has any length. -/
theorem busy_too_long :
    ¬ ∀ (c : SavingConfig) (n : Nat), 0 ≤ c.backoff →
      (alone { config := c } 0 1 "x" (.replicate (n + 1) busy ++ [.done])).ended =
        [(0, 0, .done)] := by
  intro h
  have hdone := h { backoff := 0 } (maxDoublings + 1) (Int.le_refl 0)
  have hverdict : busy.response.verdict = .inProgress (.whole "7") := rfl
  have hscript : (List.replicate (maxDoublings + 2) busy ++ [Reply.done]).map
      (·.response.verdict) =
      (JsonText.whole "7" :: .replicate (maxDoublings + 1) (.whole "7")).map
        Verdict.inProgress ++ [.done] := by
    rw [List.map_append, List.map_replicate, hverdict, List.map_singleton, Reply.verdict_done,
      ← List.replicate_succ, List.map_replicate]
  obtain ⟨effects, -, hended⟩ :=
    alone_busy (m := { config := { backoff := 0 } }) ⟨rfl, rfl, rfl⟩ 0 1 "x" rfl hscript
  rw [hended, List.length_replicate, SaveEnd.afterBusy, if_neg (Nat.not_succ_le_self _)] at hdone
  cases hdone

end Timeline

end Spreadsheet
