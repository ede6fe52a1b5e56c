import Mathlib.Data.List.Flatten
import Spreadsheet.Remote.Reply

/-!
# Bodies that are nested too deeply

A server can send a body that no reader gets through: brackets that open more arrays than may stand
inside each other. Reading it is no failure like others, and the callers of `Response.read` have to
tell the two apart. Main statement: `Response.read_nested`.
-/

namespace Spreadsheet

open Text

namespace Json

theorem tokens_nested (n : Nat) :
    tokens (List.replicate n '[') = List.replicate n .openArray := by
  induction n with
  | zero => simp [tokens]
  | succ n ih =>
    rw [List.replicate_succ, tokens, List.replicate_succ, ih]
    rfl

/-- The machine stops at an array that stands inside too many others. -/
theorem run_nested (stack : List Frame) {n : Nat} (hstack : stack.length < maxDepth)
    (h : maxDepth ≤ stack.length + n) :
    run (.firstItem stack) (.replicate n .openArray) = .error (.tooDeep .array) := by
  induction n generalizing stack with
  | zero => exact absurd hstack (Nat.not_lt.2 h)
  | succ n ih =>
    have hstep : step (.firstItem stack) .openArray = openBracket (.array [] :: stack) .array := rfl
    rw [List.replicate_succ, run, hstep, openBracket, List.length_cons]
    by_cases hroom : stack.length + 1 < maxDepth
    · rw [if_pos hroom]
      exact ih (.array [] :: stack) hroom (by rw [List.length_cons]; omega)
    · rw [if_neg hroom]

theorem parseCodes_nested {n : Nat} (h : maxDepth < n) :
    parseCodes (.replicate n 0x5b) = .error (.tooDeep .array) := by
  have hmarked : (List.replicate n 0x5b).flatMap marked = List.replicate n '[' := by
    rw [List.flatMap_replicate]
    exact List.flatten_replicate_singleton
  obtain ⟨n, rfl⟩ := Nat.exists_eq_succ_of_ne_zero (Nat.ne_of_gt (Nat.zero_lt_of_lt h))
  rw [parseCodes, hmarked, tokens_nested, List.replicate_succ, run]
  exact run_nested [] (by decide) (by rw [List.length_nil]; omega)

end Json

namespace Text

theorem decodeUtf8_nested (n : Nat) :
    decodeUtf8 false (.replicate n 0x5b) = some (.replicate n 0x5b) := by
  induction n with
  | zero => rfl
  | succ n ih =>
    have hcons (bytes : List UInt8) :
        decodeUtf8 false (0x5b :: bytes) = (decodeUtf8 false bytes).map (0x5b :: ·) := by
      rw [decodeUtf8.eq_def]
      rfl
    rw [List.replicate_succ, hcons, ih]
    rfl

theorem decodeDetected_nested (n : Nat) :
    decodeDetected (.replicate n 0x5b) = some (.replicate n 0x5b) := by
  match n with
  | 0 | 1 | 2 | 3 => rfl
  | n + 4 => exact decodeUtf8_nested (n + 4)

end Text

theorem Body.value_nested {n : Nat} (h : Json.maxDepth < n) (endpoint : Endpoint) :
    Body.value endpoint (.bytes (.replicate n 0x5b)) = .error (.tooDeep .array) := by
  unfold value
  dsimp only
  rw [decodeDetected_nested, Option.map_some, Json.parseCodes_nested h]

/-- **Too many brackets cannot be read.** -/
theorem Response.read_nested {n code : Nat} (h : Json.maxDepth < n)
    (hcode : ¬ (400 ≤ code ∧ code ≤ 599)) (endpoint : Endpoint) :
    (Response.answered code (.bytes (.replicate n 0x5b))).read endpoint =
      .error (.tooDeep .array) := by
  rw [read, if_neg hcode, Body.value_nested h]
  rfl

end Spreadsheet
