import Spreadsheet.Proofs.Json.Limits
import Spreadsheet.Proofs.Json.RoundTrip
import Spreadsheet.Proofs.Store.Restoring
import Spreadsheet.Remote.Reply

/-!
# Proper replies

**Theorem (`read_outcome`).** A response is an answer exactly if its status is no failure and its body
holds an object that announces the answer. Everything else has a cause that callers expect, unless the
body opens too many brackets.

A failure is a status from 400 to 599. So a redirect with the body of an answer is one too
(`redirect_is_answered`), although only a status from 200 to 299 means success.
-/

namespace Spreadsheet

open Json Text

/-! ## Bodies -/

namespace Body

/-- A body is that of a JSON value. -/
def Holds : Body → Json → Prop
  | .json value, v => value = v
  | .bytes raw, v => ∃ codes, decodeDetected raw = some codes ∧ parseCodes codes = .ok v

/-- A body is a text that opens more brackets than may stand inside each other. -/
def OpensTooMany : Body → Prop
  | .json _ => False
  | .bytes raw => ∃ codes, decodeDetected raw = some codes ∧
      maxDepth < (tokens (codes.flatMap marked)).countP Token.isOpening

variable {body : Body} {endpoint : Endpoint} {v : Json}

theorem Holds.value_eq (h : body.Holds v) : body.value endpoint = .ok v := by
  cases body with
  | json value => exact congrArg Except.ok h
  | bytes raw =>
    obtain ⟨codes, hdecode, hparse⟩ := h
    rw [value, hdecode, Option.map_some, hparse]

/-- What comes of the body of a response. -/
theorem value_cases (body : Body) (endpoint : Endpoint) :
    (∃ v, body.Holds v ∧ body.value endpoint = .ok v) ∨
      ((∀ v, ¬ body.Holds v) ∧ (body.value endpoint = .error (.invalidJson endpoint) ∨
        body.OpensTooMany ∧ ∃ b, body.value endpoint = .error (.tooDeep b))) := by
  cases body with
  | json v => exact .inl ⟨v, rfl, rfl⟩
  | bytes raw =>
    unfold value
    dsimp only
    cases hdecode : decodeDetected raw with
    | none => exact .inr ⟨fun v ⟨codes, hcodes, _⟩ => by simp [hdecode] at hcodes, .inl rfl⟩
    | some codes =>
      rw [Option.map_some]
      cases hparse : parseCodes codes with
      | ok v => exact .inl ⟨v, ⟨codes, hdecode, hparse⟩, rfl⟩
      | error e =>
        refine .inr ⟨fun v ⟨codes', hcodes, hok⟩ => ?_, ?_⟩
        · obtain rfl := Option.some.inj (hdecode.symm.trans hcodes)
          rw [hparse] at hok
          cases hok
        · cases e with
          | tooDeep b =>
            -- The machine starts outside of all brackets, and each token opens one level at most.
            have hdeep := (run_error hparse).1 b rfl
            rw [show (Place.value []).depth = 0 from rfl, Nat.zero_add] at hdeep
            exact .inr ⟨⟨codes, hdecode, hdeep⟩, b, rfl⟩
          | _ => exact .inl rfl

end Body

/-! ## Answers -/

/-- The answer that the entries of an object announce. The job is any value that counts as present. -/
inductive Announces (entries : List (JsonText × Json)) : Answer → Prop
  | done : Json.lookup "status" entries = .string (.whole "DONE") →
      (Json.lookup "id" entries).isTruthy = false →
      Announces entries (.done none (Json.lookup "done_at" entries))
  | doneUnder : Json.lookup "status" entries = .string (.whole "DONE") →
      (Json.lookup "id" entries).isTruthy = true →
      Announces entries
        (.done (some (Json.lookup "id" entries).plain) (Json.lookup "done_at" entries))
  | inProgress : Json.lookup "status" entries = .string (.whole "IN_PROGRESS") →
      (Json.lookup "id" entries).isTruthy = true →
      Announces entries
        (.inProgress (Json.lookup "id" entries).plain (Json.lookup "done_at" entries))

namespace Announces

variable {entries : List (JsonText × Json)} {answer : Answer} {job : JsonText}

theorem ofJson_eq (h : Announces entries answer) : Answer.ofJson (.object entries) = .ok answer := by
  cases h with
  | done hstatus hid | doneUnder hstatus hid | inProgress hstatus hid =>
    simp [Answer.ofJson, Answer.jobOf, hstatus, hid]

/-- The job that is named has a text that is not empty. -/
theorem job_ne_empty (h : Announces entries answer) (hjob : answer.job? = some job) :
    job.text ≠ "" := by
  cases h with
  | done hstatus hid => cases hjob
  | doneUnder hstatus hid | inProgress hstatus hid =>
    cases hjob
    exact Json.text_plain_ne_empty hid

end Announces

theorem announces_of_ofJson {v : Json} {answer : Answer} (h : Answer.ofJson v = .ok answer) :
    ∃ entries, v = .object entries ∧ Announces entries answer := by
  cases v with
  | object entries =>
    refine ⟨entries, rfl, ?_⟩
    unfold Answer.ofJson at h
    dsimp only [Answer.jobOf] at h
    split at h
    · rename_i hstatus
      cases hid : (Json.lookup "id" entries).isTruthy <;> rw [hid] at h <;> cases h
      · exact .done hstatus hid
      · exact .doneUnder hstatus hid
    · rename_i hstatus
      cases hid : (Json.lookup "id" entries).isTruthy <;> rw [hid] at h <;> cases h
      exact .inProgress hstatus hid
    · cases h
  | _ => cases h

theorem ne_tooDeep_of_ofJson {v : Json} {cause : RemoteError} (h : Answer.ofJson v = .error cause)
    (b : Bracket) : cause ≠ .tooDeep b := by
  rintro rfl
  unfold Answer.ofJson at h
  split at h
  · dsimp only at h
    split at h
    · cases h
    · split at h <;> cases h
    · cases h
  · cases h

/-! ## Responses -/

namespace Response

/-- A response announces an answer: its status is no failure, and its body is an object that does. -/
inductive Announces : Response → Answer → Prop
  | answered {code : Nat} {body : Body} {entries : List (JsonText × Json)} {answer : Answer} :
      ¬ (400 ≤ code ∧ code ≤ 599) → body.Holds (.object entries) →
      Spreadsheet.Announces entries answer → Announces (.answered code body) answer

/-- A response has a body that opens too many brackets. -/
def OpensTooMany : Response → Prop
  | .failed _ => False
  | .answered _ body => body.OpensTooMany

variable {r : Response} {endpoint : Endpoint} {answer : Answer}

theorem Announces.read_eq (h : r.Announces answer) : r.read endpoint = .ok answer := by
  obtain ⟨hcode, hbody, hentries⟩ := h
  rw [read, if_neg hcode, hbody.value_eq]
  exact hentries.ofJson_eq

/-- What comes of a response. -/
theorem read_cases (r : Response) (endpoint : Endpoint) :
    (∃ answer, r.Announces answer ∧ r.read endpoint = .ok answer) ∨
      ∃ cause, r.read endpoint = .error cause ∧ ((∀ b, cause ≠ .tooDeep b) ∨ r.OpensTooMany) := by
  cases r with
  | failed message => exact .inr ⟨_, rfl, .inl fun _ => RemoteError.noConfusion⟩
  | answered code body =>
    rw [read]
    split_ifs with hcode
    · exact .inr ⟨_, rfl, .inl fun _ => RemoteError.noConfusion⟩
    · rcases body.value_cases endpoint with ⟨v, hholds, hvalue⟩ | ⟨-, hvalue | ⟨hopens, b, hvalue⟩⟩
      · rw [hvalue]
        show (∃ answer, _ ∧ Answer.ofJson v = .ok answer) ∨
          ∃ cause, Answer.ofJson v = .error cause ∧ _
        cases hanswer : Answer.ofJson v with
        | ok answer =>
          obtain ⟨entries, rfl, hentries⟩ := announces_of_ofJson hanswer
          exact .inl ⟨answer, .answered hcode hholds hentries, rfl⟩
        | error cause => exact .inr ⟨cause, rfl, .inl (ne_tooDeep_of_ofJson hanswer)⟩
      · exact .inr ⟨_, congrArg (·.bind Answer.ofJson) hvalue,
          .inl fun _ => RemoteError.noConfusion⟩
      · exact .inr ⟨_, congrArg (·.bind Answer.ofJson) hvalue, .inr hopens⟩

/-- **Only a proper reply is an answer**, and the job that it names is not empty. All other replies
have a cause that callers expect, or open too many brackets. -/
theorem read_outcome (r : Response) (endpoint : Endpoint) :
    (∀ answer, r.read endpoint = .ok answer ↔
      r.Announces answer ∧ ∀ job ∈ answer.job?, job.text ≠ "") ∧
    ((∀ answer, ¬ r.Announces answer) ↔
      ∃ cause, r.read endpoint = .error cause ∧ ((∀ b, cause ≠ .tooDeep b) ∨ r.OpensTooMany)) := by
  refine ⟨fun answer => ⟨fun h => ?_, fun ⟨h, _⟩ => h.read_eq⟩, fun hnone => ?_, ?_⟩
  · rcases r.read_cases endpoint with ⟨answer', hannounces, hread⟩ | ⟨cause, hread, -⟩
    · obtain rfl := Except.ok.inj (h.symm.trans hread)
      refine ⟨hannounces, fun job hjob => ?_⟩
      cases hannounces with
      | answered hcode hbody hentries => exact hentries.job_ne_empty hjob
    · rw [h] at hread
      cases hread
  · rcases r.read_cases endpoint with ⟨answer, hannounces, -⟩ | hcause
    · exact absurd hannounces (hnone answer)
    · exact hcause
  · rintro ⟨cause, hread, -⟩ answer hannounces
    rw [hannounces.read_eq] at hread
    cases hread

/-- The object that says that a save is done. -/
def doneEntries : List (JsonText × Json) := [("status", .string "DONE")]

/-- Its text in bytes. -/
def doneBytes : List UInt8 := (Json.object doneEntries).render.toUTF8.toList

theorem holds_doneBytes : (Body.bytes doneBytes).Holds (.object doneEntries) := by
  have hdecode : decodeDetected doneBytes =
      some ((Json.object doneEntries).chars.map Char.toNat) := by decide +kernel
  have hreadable : (Json.object doneEntries).Readable (0 + 1) := by
    refine readable_object (fun e he => ?_) (by decide)
    rw [List.mem_singleton.1 he]
    exact ⟨⟨_, rfl⟩, readable_string 0 _⟩
  exact ⟨_, hdecode, parseChars_chars hreadable (by decide)⟩

/-- **A redirect may be an answer too**, although its status does not mean success. -/
theorem redirect_is_answered :
    ¬ ∀ endpoint code raw,
      (∃ answer, (answered code (.bytes raw)).read endpoint = .ok answer) ↔
        (200 ≤ code ∧ code ≤ 299) ∧ ∃ entries answer,
          Body.Holds (.bytes raw) (.object entries) ∧ Spreadsheet.Announces entries answer := by
  intro h
  have hannounces : (answered 302 (.bytes doneBytes)).Announces (.done none .null) :=
    .answered (by decide) holds_doneBytes (.done rfl rfl)
  have hcode := ((h .save 302 doneBytes).1 ⟨_, hannounces.read_eq⟩).1
  omega

end Response

end Spreadsheet
