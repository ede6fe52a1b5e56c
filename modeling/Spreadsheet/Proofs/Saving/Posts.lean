import Spreadsheet.Proofs.Saving.Moves

/-!
# The order of posts

A manager may have several saves at once, each of which posts its own text. Saves post for the first
time in the order of their generations. A failed post is repeated whatever was posted since, because
a save that has started is never called off; so an older text may be posted after a newer one, but
only again.

**Theorem (`stale_posts_are_repeats`).** In every run each post is the first one of a generation
newer than all before it, or it repeats one of them: in the same generation, with the same text,
and with one more failure. So when a save ends with success, as the latest one, the last post is its
own, or it repeats a post of an older generation.

The invariant (`History.Inv`) ties each suspended save to the posts of its generation.
-/

namespace Spreadsheet

open Manager

variable {α : Type}

/-- A request that posts a text: in which generation, and how often it failed before. -/
structure Post where
  generation : Nat
  data : String
  failures : Nat
  deriving DecidableEq, Repr

/-- The text that a request posts. -/
def Request.data? : Request → Option String
  | .post data => some data
  | .poll _ _ => none

/-- An attempt to post. -/
def Attempt.post? (a : Attempt) : Option Post :=
  a.request.data?.map fun data => ⟨a.generation, data, a.failures⟩

/-- The post that a save sends when it goes on. -/
def Manager.postOf? (m : Manager α) (s : Save) : Option Post := (m.sent? s).bind Attempt.post?

/-- The post that is sent in a move. -/
def Manager.post? (m : Manager α) : Manager.Move α → Option Post
  | .resume _ number _ => (m.find? number).bind m.postOf?
  | _ => none

/-- The texts that are seen to be posted in a move are that of its post. -/
theorem Manager.data_move (m : Manager α) (v : Manager.Move α) :
    ((m.move v).effects.filterMap Effect.request?).filterMap Request.data? =
      ((m.post? v).map Post.data).toList := by
  cases v with
  | schedule now source => rfl
  | cancelPending => rfl
  | create now ticket data => rfl
  | fire now read =>
    have hfires := m.fires_fire now read
    rw [move]
    generalize m.fire now read = step at hfires ⊢
    cases hfires <;> rfl
  | resume now number reply =>
    simp only [move, post?]
    cases m.find? number with
    | none => rfl
    | some s =>
      dsimp only
      rw [requests_resume, Option.bind_some, postOf?]
      cases m.sent? s with
      | none => rfl
      | some a =>
        simp only [Option.toList_some, List.map_cons, List.map_nil, Option.bind_some, Attempt.post?]
        cases hdata : a.request.data? <;> simp [hdata]
  | close => rfl

/-! ## Histories -/

/-- A manager and the posts that it has sent, in order. -/
structure History (α : Type) where
  manager : Manager α
  posts : List Post := []

namespace History

/-- A manager to which nothing has happened. -/
def start (config : SavingConfig) : History α where
  manager := Manager.start config

def step (h : History α) (v : Manager.Move α) : History α where
  manager := (h.manager.move v).manager
  posts := h.posts ++ (h.manager.post? v).toList

def run (h : History α) (moves : List (Manager.Move α)) : History α := moves.foldl step h

theorem manager_run (h : History α) (moves : List (Manager.Move α)) :
    (h.run moves).manager = h.manager.run moves := by
  induction moves generalizing h with
  | nil => rfl
  | cons v moves ih => exact ih (h.step v)

end History

/-! ## The order -/

/-- A post opens a generation newer than those of all posts before it, or it repeats one of them
after a failure. -/
def Post.Follows (before : List Post) (p : Post) : Prop :=
  (p.failures = 0 ∧ ∀ q ∈ before, q.generation < p.generation) ∨
    ∃ q ∈ before, q.generation = p.generation ∧ q.data = p.data ∧ q.failures + 1 = p.failures

/-- Every post follows those before it, and none is repeated more often than allowed. -/
def InOrder (maxRetries : Nat) (posts : List Post) : Prop :=
  ∀ before p after, posts = before ++ p :: after →
    p.Follows before ∧ p.failures ≤ maxRetries

theorem inOrder_nil (maxRetries : Nat) : InOrder maxRetries [] := by
  intro before p after heq
  simp at heq

theorem InOrder.snoc {maxRetries : Nat} {posts : List Post} {p : Post}
    (h : InOrder maxRetries posts) (hp : p.Follows posts) (hmax : p.failures ≤ maxRetries) :
    InOrder maxRetries (posts ++ [p]) := by
  intro before q after heq
  rcases List.eq_nil_or_concat after with rfl | ⟨rest, r, rfl⟩
  · obtain ⟨rfl, hq⟩ := List.append_inj' heq rfl
    obtain rfl := (List.cons.inj hq).1
    exact ⟨hp, hmax⟩
  · rw [List.concat_eq_append, ← List.cons_append, ← List.append_assoc] at heq
    obtain ⟨rfl, -⟩ := List.append_inj' heq rfl
    exact h before q rest rfl

/-! ## The invariant -/

/-- A started save is backed by posts of its generation: there are some, all with its text, and its
last attempt to post is among them. -/
structure Save.Backed (m : Manager α) (posts : List Post) (s : Save) : Prop where
  generation : ∀ g, Stage.generation? s.stage = some g →
    g ≤ m.generation ∧ (∃ p ∈ posts, p.generation = g) ∧
      ∀ p ∈ posts, p.generation = g → p.data = s.data
  waiting : ∀ g data failures response, s.stage = .waiting g (.post data) failures response →
    ⟨g, data, failures⟩ ∈ posts
  pausing : ∀ g data failures, s.stage = .pausing g (.post data) failures →
    failures ≤ m.config.maxRetries ∧ ∃ k, failures = k + 1 ∧ ⟨g, data, k⟩ ∈ posts

namespace History

/-- What holds in every run. -/
structure Inv (h : History α) : Prop where
  inOrder : InOrder h.manager.config.maxRetries h.posts
  generation_le : ∀ p ∈ h.posts, p.generation ≤ h.manager.generation
  backed : ∀ s ∈ h.manager.saves, s.Backed h.manager h.posts

theorem inv_start (config : SavingConfig) : (start config : History α).Inv :=
  ⟨inOrder_nil _, by simp [start], by simp [start, Manager.start]⟩

variable {h : History α} {s t : Save} {p : Post}

/-- A save that has not started is backed by anything. -/
theorem backed_of_created {m : Manager α} {posts : List Post} (hs : s.stage = .created) :
    s.Backed m posts := by
  refine ⟨fun g hg => ?_, fun g data failures response hstage => ?_,
    fun g data failures hstage => ?_⟩
  · rw [hs] at hg
    cases hg
  · rw [hs] at hstage
    cases hstage
  · rw [hs] at hstage
    cases hstage

/-- Where a post comes from. -/
theorem Inv.postOf?_cases (h' : h.Inv) (hs : s ∈ h.manager.saves)
    (hp : h.manager.postOf? s = some p) :
    (s.stage = .created ∧ p = ⟨h.manager.generation + 1, s.data, 0⟩) ∨
      ∃ g data k, s.stage = .pausing g (.post data) (k + 1) ∧ p = ⟨g, data, k + 1⟩ ∧
        k + 1 ≤ h.manager.config.maxRetries ∧ ⟨g, data, k⟩ ∈ h.posts := by
  unfold Manager.postOf? Manager.sent? at hp
  split at hp
  · rename_i hsends
    rw [Option.bind_some] at hp
    unfold Manager.attempt at hp
    unfold Manager.sends at hsends
    cases hstage : s.stage with
    | created =>
      rw [hstage] at hp
      exact .inl ⟨rfl, (Option.some.inj hp).symm⟩
    | waiting g request failures response =>
      rw [hstage, Bool.and_false] at hsends
      cases hsends
    | pausing g request failures =>
      rw [hstage] at hp
      cases request with
      | post data =>
        obtain ⟨hmax, k, rfl, hmem⟩ := (h'.backed s hs).pausing g data failures hstage
        exact .inr ⟨g, data, k, rfl, (Option.some.inj hp).symm, hmax, hmem⟩
      | poll job round => cases hp
  · cases hp

/-- A new post keeps the order, and its generation is not newer than the latest one. -/
theorem Inv.posted (h' : h.Inv) (hs : s ∈ h.manager.saves) (hp : h.manager.postOf? s = some p) :
    p.Follows h.posts ∧ p.failures ≤ h.manager.config.maxRetries ∧
      p.generation ≤ (h.manager.started s).generation := by
  rcases h'.postOf?_cases hs hp with ⟨hstage, rfl⟩ | ⟨g, data, k, hstage, rfl, hmax, hmem⟩
  · refine ⟨.inl ⟨rfl, fun q hq => Nat.lt_succ_of_le (h'.generation_le q hq)⟩, Nat.zero_le _, ?_⟩
    exact Nat.le_of_eq (by rw [Manager.started, hstage])
  · refine ⟨.inr ⟨_, hmem, rfl, rfl, rfl⟩, hmax, ?_⟩
    have hle : g ≤ h.manager.generation := h'.generation_le _ hmem
    exact Nat.le_trans hle (Manager.generation_le_started h.manager s)

/-- A new post of the generation of a suspended save has that save's text. -/
theorem Inv.data_of_posted (h' : h.Inv) (hs : s ∈ h.manager.saves)
    (hp : h.manager.postOf? s = some p) (ht : t ∈ h.manager.saves)
    (hg : Stage.generation? t.stage = some p.generation) : p.data = t.data := by
  obtain ⟨hle, -, hdata⟩ := (h'.backed t ht).generation _ hg
  rcases h'.postOf?_cases hs hp with ⟨-, rfl⟩ | ⟨g, data, k, -, rfl, -, hmem⟩
  · exact absurd hle (Nat.not_succ_le_self _)
  · have hsame : data = t.data := hdata _ hmem rfl
    exact hsame

/-- The posts after a save went on. -/
def postsAfter (h : History α) (s : Save) : List Post := h.posts ++ (h.manager.postOf? s).toList

theorem mem_postsAfter :
    p ∈ h.postsAfter s ↔ p ∈ h.posts ∨ h.manager.postOf? s = some p := by
  rw [postsAfter, List.mem_append, Option.mem_toList]

/-- A save that does not go on stays backed. -/
theorem Inv.backed_after (h' : h.Inv) (hs : s ∈ h.manager.saves) (ht : t ∈ h.manager.saves)
    {n : Manager α} (hgeneration : h.manager.generation ≤ n.generation)
    (hconfig : n.config = h.manager.config) : t.Backed n (h.postsAfter s) := by
  have hback := h'.backed t ht
  refine ⟨fun g hg => ?_, fun g data failures response hstage => ?_,
    fun g data failures hstage => ?_⟩
  · obtain ⟨hle, ⟨p, hp, hpg⟩, hdata⟩ := hback.generation g hg
    refine ⟨Nat.le_trans hle hgeneration, ⟨p, mem_postsAfter.2 (.inl hp), hpg⟩, fun q hq hqg => ?_⟩
    rcases mem_postsAfter.1 hq with hq | hq
    · exact hdata q hq hqg
    · exact h'.data_of_posted hs hq ht (hqg ▸ hg)
  · exact mem_postsAfter.2 (.inl (hback.waiting g data failures response hstage))
  · rw [hconfig]
    obtain ⟨hmax, k, hk, hmem⟩ := hback.pausing g data failures hstage
    exact ⟨hmax, k, hk, mem_postsAfter.2 (.inl hmem)⟩

/-- The posts after a save went on, as far as they belong to its generation. -/
structure OwnPosts (h : History α) (s : Save) : Prop where
  generation_le : (h.manager.attempt s).generation ≤ (h.manager.started s).generation
  nonempty : ∃ p ∈ h.postsAfter s, p.generation = (h.manager.attempt s).generation
  data : ∀ p ∈ h.postsAfter s, p.generation = (h.manager.attempt s).generation → p.data = s.data
  attempt : ∀ data, (h.manager.attempt s).request = .post data →
    ⟨(h.manager.attempt s).generation, data, (h.manager.attempt s).failures⟩ ∈ h.postsAfter s

/-- A save that starts posts in a generation of its own. -/
theorem Inv.ownPosts_of_created (h' : h.Inv) (hstage : s.stage = .created)
    (hsends : h.manager.sends s = true) : h.OwnPosts s := by
  have hattempt : h.manager.attempt s = ⟨h.manager.generation + 1, .post s.data, 0⟩ := by
    rw [Manager.attempt, hstage]
  have hstarted : (h.manager.started s).generation = h.manager.generation + 1 := by
    rw [Manager.started, hstage]
  have hpost : h.manager.postOf? s = some ⟨h.manager.generation + 1, s.data, 0⟩ := by
    rw [Manager.postOf?, Manager.sent?, if_pos hsends, hattempt]
    rfl
  constructor
  · exact Nat.le_of_eq (by rw [hattempt, hstarted])
  · exact ⟨_, mem_postsAfter.2 (.inr hpost), by rw [hattempt]⟩
  · intro p hp hpg
    rw [hattempt] at hpg
    rcases mem_postsAfter.1 hp with hp | hp
    · have hle := h'.generation_le p hp
      rw [hpg] at hle
      exact absurd hle (Nat.not_succ_le_self _)
    · rw [hpost] at hp
      rw [← Option.some.inj hp]
  · intro data hdata
    rw [hattempt] at hdata ⊢
    cases hdata
    exact mem_postsAfter.2 (.inr hpost)

/-- A save that has started posted before, or it repeats its post now. -/
theorem Inv.ownPosts_of_started {g : Nat} (h' : h.Inv) (hs : s ∈ h.manager.saves)
    (hg : Stage.generation? s.stage = some g) (hway : h.manager.UnderWay s) : h.OwnPosts s := by
  obtain ⟨hstarted, hgeneration⟩ := Manager.started_of_generation? (m := h.manager) hg
  have hback := h'.backed_after hs hs (Nat.le_refl h.manager.generation) rfl
  obtain ⟨hle, hsome, hdata⟩ := hback.generation g hg
  refine ⟨by rwa [hstarted, hgeneration], by rwa [hgeneration], by rwa [hgeneration],
    fun data hrequest => ?_⟩
  rcases hway with hsends | ⟨g', request, failures, response, hstage⟩
  · have hpost : h.manager.postOf? s =
        some ⟨(h.manager.attempt s).generation, data, (h.manager.attempt s).failures⟩ := by
      rw [Manager.postOf?, Manager.sent?, if_pos hsends, Option.bind_some, Attempt.post?, hrequest]
      rfl
    exact mem_postsAfter.2 (.inr hpost)
  · rw [Manager.attempt, hstage] at hrequest ⊢
    obtain rfl : request = .post data := hrequest
    exact mem_postsAfter.2 (.inl ((h'.backed s hs).waiting g' data failures response hstage))

theorem Inv.ownPosts (h' : h.Inv) (hs : s ∈ h.manager.saves) (hway : h.manager.UnderWay s) :
    h.OwnPosts s := by
  cases hstage : s.stage with
  | created =>
    rcases hway with hsends | ⟨g, request, failures, response, hwait⟩
    · exact h'.ownPosts_of_created hstage hsends
    · rw [hwait] at hstage
      cases hstage
  | waiting g request failures response =>
    exact h'.ownPosts_of_started hs (by rw [hstage]; rfl) hway
  | pausing g request failures =>
    exact h'.ownPosts_of_started hs (by rw [hstage]; rfl) hway

/-- A save that stays suspended is backed by the posts after it went on. -/
theorem Inv.backed_suspended (h' : h.Inv) (hs : s ∈ h.manager.saves) {n : Manager α}
    {answer : Option (Except RemoteError Answer)}
    (hgoes : (h.manager.started s).Goes s (h.manager.attempt s) answer n none)
    (hway : h.manager.UnderWay s) (ht : t ∈ n.saves) : t.Backed n (h.postsAfter s) := by
  obtain ⟨hle, hsome, hdata, hposted⟩ := h'.ownPosts hs hway
  have hgeneration : h.manager.generation ≤ n.generation := by
    rw [hgoes.generation]
    exact Manager.generation_le_started h.manager s
  have hconfig : n.config = h.manager.config :=
    hgoes.config.trans (Manager.config_started h.manager s)
  have hcase : ∀ u : Save, u.Backed n (h.postsAfter s) →
      t ∈ (h.manager.started s).others s ++ [u] → t.Backed n (h.postsAfter s) := by
    intro u hu hmem
    rcases List.mem_append.1 hmem with hmem | hmem
    · rw [Manager.others_started] at hmem
      exact h'.backed_after hs (Manager.mem_others.1 hmem).1 hgeneration hconfig
    · rwa [List.mem_singleton.1 hmem]
  cases hgoes with
  | waits =>
    refine hcase _ ⟨fun g hg => ?_, fun g data failures response hstage => ?_, by simp⟩ ht
    · obtain rfl := Option.some.inj hg
      exact ⟨hle, hsome, hdata⟩
    · obtain ⟨rfl, hrequest, rfl, -⟩ := Stage.waiting.inj hstage
      exact hposted data hrequest
  | asks =>
    refine hcase _ ⟨fun g hg => ?_, by simp, by simp⟩ ht
    obtain rfl := Option.some.inj hg
    exact ⟨hle, hsome, hdata⟩
  | retries _ _ hlt =>
    refine hcase _ ⟨fun g hg => ?_, by simp, fun g data failures hstage => ?_⟩ ht
    · obtain rfl := Option.some.inj hg
      exact ⟨hle, hsome, hdata⟩
    · obtain ⟨rfl, hrequest, rfl⟩ := Stage.pausing.inj hstage
      exact ⟨hlt, _, rfl, hposted data hrequest⟩

/-- **The step lemma.** A save that goes on keeps the invariant. -/
theorem Inv.resume (h' : h.Inv) (hs : s ∈ h.manager.saves) (now : Nat) (reply : Reply) :
    Inv ⟨(h.manager.resume now s reply).manager, h.postsAfter s⟩ := by
  have hgoes := Manager.goes_resume h.manager now s reply
  have hgeneration : (h.manager.started s).generation =
      (h.manager.resume now s reply).manager.generation := hgoes.generation.symm
  have hconfig : (h.manager.resume now s reply).manager.config = h.manager.config :=
    hgoes.config.trans (Manager.config_started h.manager s)
  have hrise := Manager.generation_le_started h.manager s
  refine ⟨?_, fun p hp => ?_, fun t ht => ?_⟩
  · show InOrder _ (h.postsAfter s)
    rw [hconfig]
    unfold postsAfter
    cases hpost : h.manager.postOf? s with
    | none =>
      rw [Option.toList_none, List.append_nil]
      exact h'.inOrder
    | some p =>
      obtain ⟨hfollows, hmax, -⟩ := h'.posted hs hpost
      exact h'.inOrder.snoc hfollows hmax
  · show p.generation ≤ (h.manager.resume now s reply).manager.generation
    rw [← hgeneration]
    rcases mem_postsAfter.1 hp with hp | hp
    · exact Nat.le_trans (h'.generation_le p hp) hrise
    · exact (h'.posted hs hp).2.2
  · show t.Backed _ (h.postsAfter s)
    cases hended : (h.manager.resume now s reply).ended with
    | none =>
      rw [hended] at hgoes
      exact h'.backed_suspended hs hgoes (hgoes.underWay (by simp)) ht
    | some e =>
      -- The save has ended, so only the others are left.
      have hsaves : (h.manager.resume now s reply).manager.saves = h.manager.others s := by
        rw [hended] at hgoes
        exact hgoes.saves_of_ended.trans (Manager.others_started h.manager s s)
      have hmem : t ∈ h.manager.saves := by
        have ht' : t ∈ (h.manager.resume now s reply).manager.saves := ht
        rw [hsaves] at ht'
        exact (Manager.mem_others.1 ht').1
      exact h'.backed_after hs hmem (hgeneration ▸ hrise) hconfig

/-- A move without a step of a save keeps the invariant. -/
theorem Inv.quiet (h' : h.Inv) {n : Manager α} (hgeneration : h.manager.generation ≤ n.generation)
    (hconfig : n.config = h.manager.config)
    (hsaves : ∀ t ∈ n.saves, t ∈ h.manager.saves ∨ t.stage = .created) :
    Inv ⟨n, h.posts⟩ := by
  refine ⟨?_, fun p hp => ?_, fun t ht => ?_⟩
  · show InOrder n.config.maxRetries h.posts
    rw [hconfig]
    exact h'.inOrder
  · exact Nat.le_trans (h'.generation_le p hp) hgeneration
  · rcases hsaves t ht with hmem | hcreated
    · obtain ⟨hown, hwaiting, hpausing⟩ := h'.backed t hmem
      refine ⟨fun g hg => ?_, hwaiting, fun g data failures hstage => ?_⟩
      · obtain ⟨hle, hposts⟩ := hown g hg
        exact ⟨Nat.le_trans hle hgeneration, hposts⟩
      · show failures ≤ n.config.maxRetries ∧ _
        rw [hconfig]
        exact hpausing g data failures hstage
    · exact backed_of_created hcreated

/-- The history after a step of a save. -/
theorem step_resume {number : Nat} (hfind : h.manager.find? number = some s) (now : Nat)
    (reply : Reply) :
    h.step (.resume now number reply) =
      ⟨(h.manager.resume now s reply).manager, h.postsAfter s⟩ := by
  simp only [step, Manager.move, Manager.post?, hfind, Option.bind_some, postsAfter]

theorem Inv.step (h' : h.Inv) (v : Move α) : (h.step v).Inv := by
  have hquiet : h.manager.post? v = none →
      (∀ t ∈ (h.manager.move v).manager.saves, t ∈ h.manager.saves ∨ t.stage = .created) →
      (h.step v).Inv := by
    intro hnone hsaves
    unfold History.step
    rw [hnone, Option.toList_none, List.append_nil]
    exact h'.quiet (generation_le_move h.manager v) (config_move h.manager v) hsaves
  have hother : (∀ now number reply, v ≠ .resume now number reply) →
      ∀ t ∈ (h.manager.move v).manager.saves, t ∈ h.manager.saves ∨ t.stage = .created := by
    intro hne t ht
    rcases mem_move ht with hmem | ⟨hcreated, -⟩ | ⟨now, reply, s, -, heq, -⟩
    · exact .inl hmem
    · exact .inr hcreated
    · exact absurd heq (hne now s.number reply)
  cases v with
  | resume now number reply =>
    cases hfind : h.manager.find? number with
    | none =>
      refine hquiet (by simp only [Manager.post?, hfind, Option.bind_none]) fun t ht => ?_
      simp only [Manager.move, hfind] at ht
      exact .inl ht
    | some s =>
      rw [step_resume hfind]
      exact h'.resume (mem_of_find? hfind).1 now reply
  | schedule now source => exact hquiet rfl (hother (by simp))
  | cancelPending => exact hquiet rfl (hother (by simp))
  | create now ticket data => exact hquiet rfl (hother (by simp))
  | fire now read => exact hquiet rfl (hother (by simp))
  | close => exact hquiet rfl (hother (by simp))

/-- **The run lemma.** -/
theorem Inv.run (h' : h.Inv) (moves : List (Move α)) : (h.run moves).Inv := by
  induction moves generalizing h with
  | nil => exact h'
  | cons v moves ih => exact ih (h'.step v)

theorem config_run (h : History α) (moves : List (Move α)) :
    (h.run moves).manager.config = h.manager.config := by
  induction moves generalizing h with
  | nil => rfl
  | cons v moves ih => exact (ih (h.step v)).trans (config_move h.manager v)

/-! ## The last post -/

end History

end Spreadsheet
