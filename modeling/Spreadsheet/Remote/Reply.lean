import Spreadsheet.Remote.Answer
import Spreadsheet.Text.Encoding

/-!
# Replies

What comes back for a request: a status code and a body, or the failure of the transport. A reply
may take its time. Reading a reply gives the answer in it or the cause of the failure.
-/

namespace Spreadsheet

/-- The body of a response: bytes as they came, or the JSON value that they stand for. -/
inductive Body where
  | bytes (raw : List UInt8)
  | json (value : Json)

namespace Body

/-- The body with the bytes of a text. -/
def ofText (text : String) : Body := .bytes text.toUTF8.toList

/-- The JSON value in a body. -/
def value (endpoint : Endpoint) : Body → Except RemoteError Json
  | .json value => .ok value
  | .bytes raw =>
    match (Text.decodeDetected raw).map Json.parseCodes with
    | some (.ok value) => .ok value
    | some (.error (.tooDeep innermost)) => .error (.tooDeep innermost)
    | _ => .error (.invalidJson endpoint)

end Body

/-- What comes back for a request. -/
inductive Response where
  | failed (message : String)
  | answered (code : Nat) (body : Body)

/-- The answer in a response to a request. -/
def Response.read (endpoint : Endpoint) : Response → Except RemoteError Answer
  | .failed message => .error (.transport endpoint message)
  | .answered code body =>
    if 400 ≤ code ∧ code ≤ 599 then .error (.status code)
    else (body.value endpoint).bind Answer.ofJson

/-- A response and how many milliseconds it takes; without a delay it is there at once. -/
structure Reply where
  delay : Option Nat
  response : Response

namespace Reply

/-- The reply of a server that has nothing else to say: the save is done. -/
def done : Reply := ⟨none, .answered 200 (.json (.object [("status", .string "DONE")]))⟩

theorem read_done (endpoint : Endpoint) :
    done.response.read endpoint = .ok (.done none .null) := by
  simp [done, Response.read, Body.value, Except.bind, Answer.ofJson, Json.lookup, Pairs.get?, Answer.jobOf,
    Json.isTruthy]

end Reply

end Spreadsheet
