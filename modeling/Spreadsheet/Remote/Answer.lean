import Spreadsheet.Json.Plain
import Spreadsheet.Json.Reader

/-!
# Answers of the save server

The server answers that a save is done, or that it is in progress under a job that can be asked
for. Everything else is a failure with a cause.
-/

namespace Spreadsheet

open Text

/-- The two addresses of the server. -/
inductive Endpoint where
  | save
  | status
  deriving DecidableEq, Repr

def Endpoint.path : Endpoint → String
  | .save => "/save"
  | .status => "/get-status"

/-- The HTTP method by which an address is asked. -/
def Endpoint.method : Endpoint → String
  | .save => "POST"
  | .status => "GET"

/-- An answer that makes sense. -/
inductive Answer where
  | done (job : Option JsonText) (doneAt : Json)
  | inProgress (job : JsonText) (doneAt : Json)

/-- Why a request has no answer. -/
inductive RemoteError where
  | transport (endpoint : Endpoint) (message : String)
  | status (code : Nat)
  | invalidJson (endpoint : Endpoint)
  /-- The body has brackets inside too many others. -/
  | tooDeep (innermost : Bracket)
  /-- The body is no object. -/
  | unexpectedBody
  | unexpectedStatus (value : Json)
  | noJob

/-- The standard phrase for the status code of a failed request. -/
def reasonPhrase (code : Nat) : String :=
  (Pairs.get? code [
    (400, "Bad Request"), (401, "Unauthorized"), (402, "Payment Required"), (403, "Forbidden"),
    (404, "Not Found"), (405, "Method Not Allowed"), (406, "Not Acceptable"),
    (407, "Proxy Authentication Required"), (408, "Request Timeout"), (409, "Conflict"),
    (410, "Gone"), (411, "Length Required"), (412, "Precondition Failed"),
    (413, "Request Entity Too Large"), (414, "Request-URI Too Long"),
    (415, "Unsupported Media Type"), (416, "Requested Range Not Satisfiable"),
    (417, "Expectation Failed"), (418, "I'm a teapot"), (421, "Misdirected Request"),
    (422, "Unprocessable Entity"), (423, "Locked"), (424, "Failed Dependency"),
    (425, "Too Early"), (426, "Upgrade Required"), (428, "Precondition Required"),
    (429, "Too Many Requests"), (431, "Request Header Fields Too Large"),
    (451, "Unavailable For Legal Reasons"), (500, "Internal Server Error"),
    (501, "Not Implemented"), (502, "Bad Gateway"), (503, "Service Unavailable"),
    (504, "Gateway Timeout"), (505, "HTTP Version Not Supported"),
    (506, "Variant Also Negotiates"), (507, "Insufficient Storage"), (508, "Loop Detected"),
    (510, "Not Extended"), (511, "Network Authentication Required")]).getD ""

namespace RemoteError

def message : RemoteError → String
  | .transport endpoint message => "Request to " ++ endpoint.path ++ " failed: " ++ message
  | .status code => "Server error: " ++ decimal code ++ " " ++ reasonPhrase code
  | .invalidJson endpoint => "Invalid JSON from " ++ endpoint.path
  | .tooDeep innermost => (JsonError.tooDeep innermost).message
  | .unexpectedBody => "Unexpected response body"
  | .unexpectedStatus value => "Unexpected status: " ++ value.inspect
  | .noJob => "Save in progress without a job id"

/-- The status code, if the server sent one that means failure. -/
def statusCode? : RemoteError → Option Nat
  | .status code => some code
  | _ => none

end RemoteError

namespace Answer

/-- The job that a value names: any value that counts as present. -/
def jobOf (value : Json) : Option JsonText := if value.isTruthy then some value.plain else none

/-- The answer in a body. -/
def ofJson : Json → Except RemoteError Answer
  | .object entries =>
    let job := jobOf (Json.lookup "id" entries)
    let doneAt := Json.lookup "done_at" entries
    match Json.lookup "status" entries with
    | .string (.whole "DONE") => .ok (.done job doneAt)
    | .string (.whole "IN_PROGRESS") =>
      match job with
      | some job => .ok (.inProgress job doneAt)
      | none => .error .noJob
    | value => .error (.unexpectedStatus value)
  | _ => .error .unexpectedBody

/-- The word for the status. -/
def word : Answer → String
  | .done _ _ => "DONE"
  | .inProgress _ _ => "IN_PROGRESS"

def job? : Answer → Option JsonText
  | .done job _ => job
  | .inProgress job _ => some job

def doneAt : Answer → Json
  | .done _ doneAt => doneAt
  | .inProgress _ doneAt => doneAt

end Answer

end Spreadsheet
