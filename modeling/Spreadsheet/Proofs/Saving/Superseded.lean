import Spreadsheet.Proofs.Saving.Moves

/-!
# Superseded saves

A save is superseded once a newer one has taken a generation. From then on nothing that it does is
told to the user, it neither clears the flag that a save is running nor reports when the server was
done, and it does not end with success.

It shows in one way only: a superseded save that gives up, because its last request has failed as
often as allowed, takes the success of a newer save back.

**Theorem (`superseded_hidden`).** In every run this is all that a superseded save can do, whatever
the replies are and however the moves of other saves come between.
-/

namespace Spreadsheet

namespace Manager

variable {α : Type} {m n : Manager α} {s t : Save} {number : Nat}

/-! ## Staying superseded -/

/-- A newer save than the one with a number has started, which may have ended. -/
def Superseded (m : Manager α) (number : Nat) : Prop :=
  number < m.created ∧ ∀ s ∈ m.saves, s.number = number →
    ∃ g, Stage.generation? s.stage = some g ∧ g < m.generation

theorem superseded_of_lt {g : Nat} (h : m.Numbered) (hs : s ∈ m.saves)
    (hg : Stage.generation? s.stage = some g) (hlt : g < m.generation) :
    m.Superseded s.number := by
  refine ⟨h.lt s hs, fun t ht hnumber => ?_⟩
  rw [h.eq ht hs hnumber]
  exact ⟨g, hg, hlt⟩

theorem created_le_move (m : Manager α) (v : Move α) :
    m.created ≤ (m.move v).manager.created := by
  cases v with
  | schedule now source => exact Nat.le_refl _
  | cancelPending => exact Nat.le_refl _
  | create now ticket data => exact Nat.le_succ _
  | fire now read =>
    show m.created ≤ (m.fire now read).manager.created
    have hfires := m.fires_fire now read
    generalize m.fire now read = step at hfires ⊢
    cases hfires with
    | closed => exact Nat.le_refl _
    | saves => exact Nat.le_succ _
    | skips => exact Nat.le_refl _
  | resume now number reply => exact Nat.le_of_eq (created_resume m now number reply).symm
  | close => exact Nat.le_refl _

/-- A save keeps its generation, and the latest generation only rises. -/
theorem Superseded.move (h : m.Superseded number) (v : Move α) :
    (m.move v).manager.Superseded number := by
  obtain ⟨hcreated, hsaves⟩ := h
  have hrise := generation_le_move m v
  refine ⟨Nat.lt_of_lt_of_le hcreated (created_le_move m v), fun t ht hnumber => ?_⟩
  rcases mem_move ht with hmem | ⟨-, hnew, -⟩ | ⟨now, reply, s, hs, -, hsame, -, hg⟩
  · obtain ⟨g, hg, hlt⟩ := hsaves t hmem hnumber
    exact ⟨g, hg, Nat.lt_of_lt_of_le hlt hrise⟩
  · rw [hnumber] at hnew
    exact absurd hcreated (hnew ▸ Nat.lt_irrefl _)
  · obtain ⟨g, hs', hlt⟩ := hsaves s hs (hsame.symm.trans hnumber)
    rw [(started_of_generation? hs').2] at hg
    exact ⟨g, hg, Nat.lt_of_lt_of_le hlt hrise⟩

theorem Superseded.run (h : m.Superseded number) (moves : List (Move α)) :
    (m.run moves).Superseded number :=
  run_induction (p := fun n => n.Superseded number) h (fun _ v hn => hn.move v) moves

/-! ## Faults -/

section Faults

variable {a : Attempt} {fault : SaveFault}

theorem breaks_without_answer (h : m.Breaks a none fault) :
    (a.request.isEncodable = false ∧ fault = .jobNotEncodable) ∨
      (a.request.isEncodable = true ∧ m.closed = true ∧ fault = .clientClosed) := by
  cases h with
  | notEncodable _ hencodable => exact .inl ⟨hencodable, rfl⟩
  | closed _ hencodable hclosed => exact .inr ⟨hencodable, hclosed, rfl⟩
  | tooDeep hanswer => cases hanswer
  | askOutOfRange hanswer => cases hanswer
  | retryOutOfRange hanswer => cases hanswer

theorem breaks_in_progress {job : JsonText} {doneAt : Json}
    (h : m.Breaks a (some (.ok (.inProgress job doneAt))) fault) :
    maxDoublings < (a.request.next job).2 ∧ fault = .delayOutOfRange := by
  cases h with
  | notEncodable hanswer => cases hanswer
  | closed hanswer => cases hanswer
  | tooDeep hanswer => cases hanswer
  | askOutOfRange hanswer hrange =>
    cases hanswer
    exact ⟨hrange, rfl⟩
  | retryOutOfRange hanswer => cases hanswer

theorem not_breaks_done {job : Option JsonText} {doneAt : Json} :
    ¬ m.Breaks a (some (.ok (.done job doneAt))) fault := by
  intro h
  cases h with
  | notEncodable hanswer => cases hanswer
  | closed hanswer => cases hanswer
  | tooDeep hanswer => cases hanswer
  | askOutOfRange hanswer => cases hanswer
  | retryOutOfRange hanswer => cases hanswer

theorem breaks_failed {cause : RemoteError} (h : m.Breaks a (some (.error cause)) fault) :
    (∃ innermost, cause = .tooDeep innermost ∧ fault = .bodyTooDeep innermost) ∨
      (cause.isRetried = true ∧ a.failures < m.config.maxRetries ∧ maxDoublings < a.failures ∧
        fault = .delayOutOfRange) := by
  cases h with
  | notEncodable hanswer => cases hanswer
  | closed hanswer => cases hanswer
  | tooDeep hanswer =>
    cases hanswer
    exact .inl ⟨_, rfl, rfl⟩
  | askOutOfRange hanswer => cases hanswer
  | retryOutOfRange hanswer hretried hlt hrange =>
    cases hanswer
    exact .inr ⟨hretried, hlt, hrange, rfl⟩

/-- A failure that is repeated breaks the save off only if the next delay is out of range. -/
theorem breaks_retried {cause : RemoteError} (h : m.Breaks a (some (.error cause)) fault)
    (hretried : cause.isRetried = true) :
    a.failures < m.config.maxRetries ∧ maxDoublings < a.failures := by
  rcases breaks_failed h with ⟨innermost, rfl, -⟩ | ⟨-, hlt, hrange, -⟩
  · cases hretried
  · exact ⟨hlt, hrange⟩

/-- An attempt breaks off by one fault only. -/
theorem Breaks.unique {answer : Option (Except RemoteError Answer)} {fault' : SaveFault}
    (h : m.Breaks a answer fault) (h' : m.Breaks a answer fault') : fault = fault' := by
  match answer with
  | none =>
    rcases breaks_without_answer h with ⟨hencodable, rfl⟩ | ⟨hencodable, -, rfl⟩
    · rcases breaks_without_answer h' with ⟨-, rfl⟩ | ⟨hencodable', -⟩
      · rfl
      · rw [hencodable] at hencodable'
        cases hencodable'
    · rcases breaks_without_answer h' with ⟨hencodable', -⟩ | ⟨-, -, rfl⟩
      · rw [hencodable] at hencodable'
        cases hencodable'
      · rfl
  | some (.ok (.done job doneAt)) => exact absurd h not_breaks_done
  | some (.ok (.inProgress job doneAt)) =>
    rw [(breaks_in_progress h).2, (breaks_in_progress h').2]
  | some (.error cause) =>
    rcases breaks_failed h with ⟨innermost, rfl, rfl⟩ | ⟨hretried, -, -, rfl⟩
    · rcases breaks_failed h' with ⟨innermost', heq, rfl⟩ | ⟨hretried, -⟩
      · rw [RemoteError.tooDeep.inj heq]
      · cases hretried
    · rcases breaks_failed h' with ⟨innermost', rfl, -⟩ | ⟨-, -, -, rfl⟩
      · cases hretried
      · rfl

end Faults

/-! ## One step of a superseded save -/

/-- The request of an attempt has failed once more, and as often as allowed. -/
def GivesUp (m : Manager α) (a : Attempt) (answer : Option (Except RemoteError Answer)) : Prop :=
  ∃ cause, answer = some (.error cause) ∧ cause.isRetried = true ∧
    m.config.maxRetries ≤ a.failures

namespace Goes

variable {a : Attempt} {answer : Option (Except RemoteError Answer)}
  {ended : Option (Nat × SaveEnd)}

theorem isSaving_retire (h : m.isCurrent a.generation = false) :
    (m.retire s a.generation).isSaving = m.isSaving := by
  unfold retire
  rw [h]
  rfl

theorem isSaving (h : m.Goes s a answer n ended) (hstale : m.isCurrent a.generation = false) :
    n.isSaving = m.isSaving := by
  cases h with
  | waits => rfl
  | asks => rfl
  | retries => rfl
  | completes _ hcurrent =>
    rw [hstale] at hcurrent
    cases hcurrent
  | comesLate => exact isSaving_retire hstale
  | givesUp =>
    exact isSaving_retire (m := { m with succeeded := false }) hstale
  | breaks => exact isSaving_retire hstale

theorem lastDoneAt (h : m.Goes s a answer n ended) (hstale : m.isCurrent a.generation = false) :
    n.lastDoneAt = m.lastDoneAt := by
  cases h with
  | completes _ hcurrent =>
    rw [hstale] at hcurrent
    cases hcurrent
  | _ => rfl

/-- A step that breaks a save off does not give it up. -/
theorem not_givesUp_of_breaks {fault : SaveFault} (h : m.Breaks a answer fault) :
    ¬ m.GivesUp a answer := by
  rintro ⟨cause, rfl, hretried, hmax⟩
  exact Nat.not_lt.2 hmax (breaks_retried h hretried).1

/-- Only a failed request is given up. -/
theorem not_givesUp_of_ne (h : ∀ cause, answer ≠ some (.error cause)) : ¬ m.GivesUp a answer := by
  rintro ⟨cause, hanswer, -⟩
  exact h cause hanswer

/-- The success that was reported last stays, unless the save gives up. -/
theorem succeeded (h : m.Goes s a answer n ended) (hstale : m.isCurrent a.generation = false) :
    n.succeeded = true ↔ m.succeeded = true ∧ ¬ m.GivesUp a answer := by
  have hkeep : ¬ m.GivesUp a answer →
      (m.succeeded = true ↔ m.succeeded = true ∧ ¬ m.GivesUp a answer) :=
    fun hnot => ⟨fun hm => ⟨hm, hnot⟩, And.left⟩
  cases h with
  | waits hanswer => exact hkeep (not_givesUp_of_ne (by simp [hanswer]))
  | asks hanswer => exact hkeep (not_givesUp_of_ne (by simp [hanswer]))
  | retries _ _ hlt =>
    refine hkeep ?_
    rintro ⟨cause, -, -, hmax⟩
    omega
  | completes _ hcurrent =>
    rw [hstale] at hcurrent
    cases hcurrent
  | comesLate hanswer => exact hkeep (not_givesUp_of_ne (by simp [hanswer]))
  | givesUp hanswer hretried hmax =>
    constructor
    · intro hfalse
      cases hfalse
    · rintro ⟨-, hnot⟩
      exact absurd ⟨_, hanswer, hretried, hmax⟩ hnot
  | breaks hbreaks => exact hkeep (not_givesUp_of_breaks hbreaks)

theorem not_done (h : m.Goes s a answer n ended) (hstale : m.isCurrent a.generation = false)
    (number : Nat) : ended ≠ some (number, .done) := by
  rintro rfl
  cases h with
  | completes _ hcurrent =>
    rw [hstale] at hcurrent
    cases hcurrent

end Goes

/-- A save breaks off exactly if its attempt does. -/
theorem Goes.broken_iff {a : Attempt} {answer : Option (Except RemoteError Answer)}
    {ended : Option (Nat × SaveEnd)} (h : m.Goes s a answer n ended) (fault : SaveFault) :
    ended = some (s.number, .broken fault) ↔ m.Breaks a answer fault := by
  have hnever : ∀ {how : Option (Nat × SaveEnd)}, how ≠ some (s.number, .broken fault) →
      ¬ m.Breaks a answer fault →
      (how = some (s.number, .broken fault) ↔ m.Breaks a answer fault) :=
    fun hne hnot => ⟨fun heq => absurd heq hne, fun hbreaks => absurd hbreaks hnot⟩
  cases h with
  | waits hanswer hclosed hencodable =>
    refine hnever (by simp) fun hbreaks => ?_
    rw [hanswer] at hbreaks
    rcases breaks_without_answer hbreaks with ⟨hnot, -⟩ | ⟨-, hnot, -⟩
    · rw [hencodable] at hnot
      cases hnot
    · rw [hclosed] at hnot
      cases hnot
  | asks hanswer hrange =>
    refine hnever (by simp) fun hbreaks => ?_
    rw [hanswer] at hbreaks
    exact Nat.not_lt.2 hrange (breaks_in_progress hbreaks).1
  | retries hanswer hretried _ hrange =>
    refine hnever (by simp) fun hbreaks => ?_
    rw [hanswer] at hbreaks
    exact Nat.not_lt.2 hrange (breaks_retried hbreaks hretried).2
  | completes hanswer _ =>
    refine hnever (by simp) fun hbreaks => ?_
    rw [hanswer] at hbreaks
    exact not_breaks_done hbreaks
  | comesLate hanswer _ =>
    refine hnever (by simp) fun hbreaks => ?_
    rw [hanswer] at hbreaks
    exact not_breaks_done hbreaks
  | givesUp hanswer hretried hmax =>
    refine hnever (by simp) fun hbreaks => ?_
    rw [hanswer] at hbreaks
    exact Nat.not_lt.2 hmax (breaks_retried hbreaks hretried).1
  | breaks hbreaks =>
    constructor
    · intro heq
      obtain rfl := SaveEnd.broken.inj (Prod.mk.inj (Option.some.inj heq)).2
      exact hbreaks
    · intro hfault
      rw [hbreaks.unique hfault]

/-- What can be seen of a save when it goes on or is cancelled: no notices, no change of the flag
that a save is running or of when the server was done, and no success. The success reported last is
taken back exactly if the save gives up, and the save ends with nothing to show for it unless its
attempt breaks off. -/
structure Hidden (m : Manager α) (s : Save) : Prop where
  notices : ∀ now reply, (m.resume now s reply).effects.filterMap Effect.notice? = []
  isSaving : ∀ now reply, (m.resume now s reply).manager.isSaving = m.isSaving
  lastDoneAt : ∀ now reply, (m.resume now s reply).manager.lastDoneAt = m.lastDoneAt
  succeeded : ∀ now reply, (m.resume now s reply).manager.succeeded = true ↔
    m.succeeded = true ∧ ¬ m.GivesUp (m.attempt s) (m.answer? s reply)
  not_done : ∀ now reply number, (m.resume now s reply).ended ≠ some (number, .done)
  broken : ∀ now reply fault, (m.resume now s reply).ended = some (s.number, .broken fault) ↔
    m.Breaks (m.attempt s) (m.answer? s reply) fault
  cancelled : { m with saves := m.others s }.close.isSaving = m.close.isSaving

/-- Closing cancels a save that is not the latest without a trace. -/
theorem isSaving_close_others {g : Nat} (h : m.Numbered) (hs : s ∈ m.saves)
    (hg : Stage.generation? s.stage = some g) (hstale : m.isCurrent g = false) :
    { m with saves := m.others s }.close.isSaving = m.close.isSaving := by
  have hany : ((m.others s).filter isTracked).any
        (fun t => (Stage.generation? t.stage).any m.isCurrent) =
      (m.saves.filter isTracked).any fun t => (Stage.generation? t.stage).any m.isCurrent := by
    rw [Bool.eq_iff_iff, List.any_eq_true, List.any_eq_true]
    constructor
    · rintro ⟨t, ht, hcurrent⟩
      obtain ⟨hmem, htracked⟩ := List.mem_filter.1 ht
      exact ⟨t, List.mem_filter.2 ⟨(mem_others.1 hmem).1, htracked⟩, hcurrent⟩
    · rintro ⟨t, ht, hcurrent⟩
      obtain ⟨hmem, htracked⟩ := List.mem_filter.1 ht
      refine ⟨t, List.mem_filter.2 ⟨mem_others.2 ⟨hmem, fun hsame => ?_⟩, htracked⟩, hcurrent⟩
      rw [h.eq hmem hs hsame, hg, Option.any_some, hstale] at hcurrent
      cases hcurrent
  show (m.isSaving && !((m.others s).filter isTracked).any
    fun t => (Stage.generation? t.stage).any m.isCurrent) = _
  rw [hany]
  rfl

/-- **The step lemma.** A save whose generation is not the latest is hidden. -/
theorem hidden_of_lt {g : Nat} (h : m.Numbered) (hs : s ∈ m.saves)
    (hg : Stage.generation? s.stage = some g) (hlt : g < m.generation) : m.Hidden s := by
  obtain ⟨hstarted, hattempt⟩ := started_of_generation? (m := m) hg
  have hstale : m.isCurrent (m.attempt s).generation = false := by
    rw [hattempt]
    exact beq_false_of_ne (Nat.ne_of_lt hlt)
  have hgoes : ∀ now reply, m.Goes s (m.attempt s) (m.answer? s reply)
      (m.resume now s reply).manager (m.resume now s reply).ended := by
    intro now reply
    have hall := goes_resume m now s reply
    rw [hstarted] at hall
    exact hall
  exact {
    notices := fun now reply => notices_resume (by rw [hstarted]; exact hstale) now reply
    isSaving := fun now reply => (hgoes now reply).isSaving hstale
    lastDoneAt := fun now reply => (hgoes now reply).lastDoneAt hstale
    succeeded := fun now reply => (hgoes now reply).succeeded hstale
    not_done := fun now reply => (hgoes now reply).not_done hstale
    broken := fun now reply => (hgoes now reply).broken_iff
    cancelled := isSaving_close_others h hs hg (hattempt ▸ hstale) }

/-! ## Runs -/

/-- **A superseded save stays hidden.** From the moment at which a newer save has taken a
generation, an older one is hidden in every later state in which it is still suspended; only by
giving up does it take back the success reported last. -/
theorem superseded_hidden (config : SavingConfig) (before later : List (Move α)) (s : Save)
    (g : Nat) (hs : s ∈ ((start config : Manager α).run before).saves)
    (hg : Stage.generation? s.stage = some g)
    (hlt : g < ((start config : Manager α).run before).generation) :
    ∀ t ∈ ((start config : Manager α).run (before ++ later)).saves, t.number = s.number →
      ((start config : Manager α).run (before ++ later)).Hidden t := by
  have hnumbered := (numbered_start (α := α) config).run before
  have hsuperseded := (superseded_of_lt hnumbered hs hg hlt).run later
  rw [run_append]
  intro t ht hnumber
  obtain ⟨g', hg', hlt'⟩ := hsuperseded.2 t ht hnumber
  exact hidden_of_lt (hnumbered.run later) ht hg' hlt'

/-- A save whose failure takes long, and a newer one that is done before. -/
def outlasted : List (Move Unit) :=
  [.create 0 (some 0) "old", .resume 0 0 ⟨some 3000, .answered 503 (.bytes [])⟩,
    .create 1000 (some 1) "new", .resume 1000 1 .done]

/-- The older of the two saves, which waits for its response. -/
def outlastedSave : Save :=
  ⟨0, some 0, "old", .waiting 1 (.post "old") 0 (.answered 503 (.bytes [])), 3000⟩

theorem mem_outlasted (config : SavingConfig) :
    outlastedSave ∈ ((start config).run outlasted).saves := by
  have hsaves : ((start config).run outlasted).saves = [outlastedSave] := rfl
  rw [hsaves]
  exact List.mem_cons_self

theorem outlasted_hidden : ((start {}).run (outlasted ++ [])).Hidden outlastedSave :=
  superseded_hidden {} outlasted [] outlastedSave 1 (mem_outlasted {}) rfl (by decide) outlastedSave
    (mem_outlasted {}) rfl

/-- A superseded save is not hidden altogether: the older save gives up after the newer one is done,
and the success of the newer one is gone. -/
theorem superseded_takes_success_back :
    ¬ ∀ (config : SavingConfig) (moves : List (Move Unit)) (s : Save) (g : Nat),
      s ∈ ((start config).run moves).saves → Stage.generation? s.stage = some g →
      g < ((start config).run moves).generation → ∀ now reply,
        (((start config).run moves).resume now s reply).manager.succeeded =
          ((start config).run moves).succeeded := by
  intro h
  have hsame := h { maxRetries := 0 } outlasted outlastedSave 1 (mem_outlasted _) rfl (by decide)
    3000 .done
  have hbefore : ((start { maxRetries := 0 }).run outlasted).succeeded = true := rfl
  have hafter : (((start { maxRetries := 0 }).run outlasted).resume 3000 outlastedSave
      .done).manager.succeeded = false := rfl
  rw [hbefore, hafter] at hsame
  cases hsame

end Manager

end Spreadsheet
