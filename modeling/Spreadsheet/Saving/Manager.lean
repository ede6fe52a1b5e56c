import Spreadsheet.Notice
import Spreadsheet.Number.Hundredths
import Spreadsheet.Remote.Reply

/-!
# Saving

Saves are triggered often and carried out seldom: a trigger starts a window of quiet, and a new
trigger starts it again. A save posts its text and asks for its job until the server is done. A
failed request is repeated after a delay that doubles each time, and so is the question for a job.

Each save that starts takes the next generation number. Only the save of the latest generation
tells the user anything, sets the outcome and clears the flag that a save is running.

A save is suspended at three places: before it starts, while it waits for a response, and while it
pauses before a request. What it does between two of them is one step.
-/

namespace Spreadsheet

open Text

/-- Times in milliseconds, and how often a failed request is repeated. A pause of a negative time
is over at once. -/
structure SavingConfig where
  debounce : Nat := 1000
  backoff : Int := 5000
  maxRetries : Nat := 3

/-- A delay doubles at most so often. -/
def maxDoublings : Nat := 1023

namespace SavingConfig

/-- The delay after `n` doublings, unless that is out of range. It is the exact product. Over doubles
the product of a large delay is infinite after a thousand doublings or so, which is a pause without
an end; here the pause lasts longer than any clock runs. -/
def delay? (c : SavingConfig) (n : Nat) : Option Int :=
  if n ≤ maxDoublings then some (c.backoff * Nat.pow 2 n) else none

/-- The delay after `n` doublings in seconds, with one decimal place. -/
def delayText (c : SavingConfig) (n : Nat) : String :=
  let units := Number.unitsOfBits (Number.nearestBits c.backoff.natAbs 1000)
  let seconds := Number.tenths (units * Nat.pow 2 n)
  if c.backoff < 0 then "-" ++ seconds else seconds

end SavingConfig

/-- What a save asks of the server: to take the text, or, in a given round, how a job is going. -/
inductive Request where
  | post (data : String)
  | poll (job : JsonText) (round : Nat)
  deriving DecidableEq, Repr

namespace Request

def endpoint : Request → Endpoint
  | .post _ => .save
  | .poll _ _ => .status

/-- The question that follows the answer that the save is in progress under a job. The job is the
one that the first answer named. -/
def next (job : JsonText) : Request → JsonText × Nat
  | .post _ => (job, 0)
  | .poll first round => (first, round + 1)

/-- Whether a request can be put into bytes. A job with a surrogate that stands alone cannot. -/
def isEncodable : Request → Bool
  | .poll (.broken _) _ => false
  | _ => true

end Request

/-- What can be seen of saving. -/
inductive Effect where
  | request (r : Request)
  | sleep (milliseconds : Int)
  | notify (n : Notice)
  | log (r : LogRecord)
  /-- The save with a ticket has ended. -/
  | saved (ticket : Nat) (done : Bool)
  deriving DecidableEq, Repr

/-- What can be seen where notices are written to the log. -/
def Effect.logged : Effect → Effect
  | .notify n => .log n.toLog
  | e => e

/-- Why a save broke off in the middle. -/
inductive SaveFault where
  | delayOutOfRange
  | clientClosed
  /-- The job that the server named cannot be put into bytes. -/
  | jobNotEncodable
  /-- A body that could not be read has brackets inside too many others. -/
  | bodyTooDeep (innermost : Bracket)
  deriving DecidableEq, Repr

def SaveFault.message : SaveFault → String
  | .delayOutOfRange => "int too large to convert to float"
  | .clientClosed => "Cannot send a request, as the client has been closed."
  | .jobNotEncodable => "surrogates not allowed"
  | .bodyTooDeep innermost => (RemoteError.tooDeep innermost).message

/-- How a save ended: with success, with nothing to show for it, or by a fault. -/
inductive SaveEnd where
  | done
  | abandoned
  | broken (fault : SaveFault)
  deriving DecidableEq, Repr

/-- Where a save is suspended. -/
inductive Stage where
  /-- It has not started. -/
  | created
  /-- It waits for the response to a request, which failed so many times before. -/
  | waiting (generation : Nat) (request : Request) (failures : Nat) (response : Response)
  /-- It pauses before a request, which failed so many times before. -/
  | pausing (generation : Nat) (request : Request) (failures : Nat)

/-- A save that has not ended. -/
structure Save where
  number : Nat
  /-- Given to a save that was asked for directly; saves without one are those that the window of
  quiet started. -/
  ticket : Option Nat
  data : String
  stage : Stage
  /-- When it goes on. -/
  due : Nat

/-- A window of quiet: when it ends, and where the text to save is found then. -/
structure Window (α : Type) where
  due : Nat
  source : α

/-- All saves to one server. The text of a triggered save is found in a source when its window
ends. -/
structure Manager (α : Type) where
  config : SavingConfig
  /-- The latest generation. -/
  generation : Nat := 0
  isSaving : Bool := false
  /-- Whether the last outcome that counted was success. -/
  succeeded : Bool := false
  /-- When the server was done, as it said with the last success. -/
  lastDoneAt : Json := .null
  window : Option (Window α) := none
  /-- The saves that have not ended, in the order in which they were created. -/
  saves : List Save := []
  /-- The number of saves created so far. -/
  created : Nat := 0
  /-- Whether the connection is closed. -/
  closed : Bool := false

namespace Manager

variable {α : Type}

/-- A manager after a step, what could be seen of it, and the save that ended with it. -/
structure Step (α : Type) where
  manager : Manager α
  effects : List Effect := []
  ended : Option (Nat × SaveEnd) := none

/-! ## Triggers -/

/-- Starts the window of quiet, anew if one was open. -/
def schedule (m : Manager α) (now : Nat) (source : α) : Manager α :=
  { m with window := some ⟨now + m.config.debounce, source⟩ }

/-- Closes the window of quiet without a save. -/
def cancelPending (m : Manager α) : Manager α := { m with window := none }

/-- Creates a save, which has not started. -/
def create (m : Manager α) (now : Nat) (ticket : Option Nat) (data : String) : Manager α :=
  { m with
    saves := m.saves ++ [⟨m.created, ticket, data, .created, now⟩]
    created := m.created + 1 }

/-- The end of the window of quiet: a save of the text found in the source, if there is one. -/
def fire (m : Manager α) (now : Nat) (read : α → Option String) : Step α :=
  match m.window with
  | none => { manager := m }
  | some w =>
    match read w.source with
    | some data => { manager := m.cancelPending.create now none data }
    | none =>
      { manager := m.cancelPending
        effects := [.log ⟨.info, "Remote save skipped: grid has errors"⟩] }

/-! ## Steps of a save -/

/-- Whether a generation is the latest. -/
def isCurrent (m : Manager α) (generation : Nat) : Bool := generation == m.generation

/-- A notice of the save of a generation, which only the latest one gives. -/
def tell (m : Manager α) (generation : Nat) (n : Notice) : List Effect :=
  if m.isCurrent generation then [.notify n] else []

/-- The other saves. -/
def others (m : Manager α) (s : Save) : List Save := m.saves.filter fun t => t.number != s.number

/-- The manager with a save suspended anew. -/
def suspend (m : Manager α) (s : Save) (stage : Stage) (due : Nat) : Manager α :=
  { m with saves := m.others s ++ [{ s with stage := stage, due := due }] }

/-- The manager without a save that ended. The latest save clears the flag. -/
def retire (m : Manager α) (s : Save) (generation : Nat) : Manager α :=
  { m with
    saves := m.others s
    isSaving := if m.isCurrent generation then false else m.isSaving }

/-- The end of a save. -/
def finish (m : Manager α) (s : Save) (generation : Nat) (how : SaveEnd) (effects : List Effect) :
    Step α where
  manager := m.retire s generation
  effects := effects ++
    match how, s.ticket with
    | .broken _, _ => []
    | _, none => []
    | how, some ticket => [.saved ticket (how == .done)]
  ended := some (s.number, how)

/-- A pause before a request. -/
def pause (m : Manager α) (now : Nat) (s : Save) (generation : Nat) (request : Request)
    (failures : Nat) (delay : Int) (effects : List Effect) : Step α where
  manager := m.suspend s (.pausing generation request failures) (now + delay.toNat)
  effects := effects ++ [.sleep delay]

/-- The answer that the save is done. It counts only for the latest generation. -/
def complete (m : Manager α) (s : Save) (generation : Nat) (doneAt : Json) : Step α :=
  if m.isCurrent generation then
    { m with succeeded := true, lastDoneAt := doneAt }.finish s generation .done
      [.log ⟨.info, "Spreadsheet saved (generation " ++ decimal generation ++ ")"⟩,
        .notify (.success "Spreadsheet saved successfully!")]
  else
    m.finish s generation .abandoned
      [.log ⟨.info, "Discarding stale save completion (generation " ++ decimal generation ++
        ", latest " ++ decimal m.generation ++ ")"⟩]

/-- The answer that the save is in progress: the next question follows after a pause. -/
def keepAsking (m : Manager α) (now : Nat) (s : Save) (generation : Nat) (job : JsonText)
    (round : Nat) : Step α :=
  let told := m.tell generation (.info "Save in progress. Please wait...")
  match m.config.delay? round with
  | some delay => m.pause now s generation (.poll job round) 0 delay told
  | none => m.finish s generation (.broken .delayOutOfRange) told

/-- A failed request: it is repeated after a pause, or given up. -/
def recover (m : Manager α) (now : Nat) (s : Save) (generation : Nat) (request : Request)
    (failures : Nat) (cause : RemoteError) : Step α :=
  if m.config.maxRetries ≤ failures then
    { m with succeeded := false }.finish s generation .abandoned
      (.log ⟨.error, "Save request failed after " ++ decimal (failures + 1) ++ " attempt(s): " ++
        cause.message⟩ ::
        m.tell generation (.error "Unable to complete the request. Please try again later."))
  else
    match m.config.delay? failures with
    | none => m.finish s generation (.broken .delayOutOfRange) []
    | some delay =>
      m.pause now s generation request (failures + 1) delay
        (.log ⟨.warning, "Save request failed (" ++ cause.message ++ "); retrying in " ++
          m.config.delayText failures ++ "s"⟩ ::
          m.tell generation (.info "Retrying request..."))

/-- The response to a request. A body that is too deep breaks the save off. -/
def receive (m : Manager α) (now : Nat) (s : Save) (generation : Nat) (request : Request)
    (failures : Nat) (response : Response) : Step α :=
  match response.read request.endpoint with
  | .ok (.done _ doneAt) => m.complete s generation doneAt
  | .ok (.inProgress job _) =>
    m.keepAsking now s generation (request.next job).1 (request.next job).2
  | .error (.tooDeep innermost) => m.finish s generation (.broken (.bodyTooDeep innermost)) []
  | .error cause => m.recover now s generation request failures cause

/-- Sends a request, whose reply is given. -/
def send (m : Manager α) (now : Nat) (s : Save) (generation : Nat) (request : Request)
    (failures : Nat) (reply : Reply) : Step α :=
  if !request.isEncodable then m.finish s generation (.broken .jobNotEncodable) []
  else if m.closed then m.finish s generation (.broken .clientClosed) []
  else
    let step := match reply.delay with
      | none => m.receive now s generation request failures reply.response
      | some delay =>
        { manager := m.suspend s (.waiting generation request failures reply.response)
            (now + delay) }
    { step with effects := .request request :: step.effects }

/-- Whether a save that goes on sends a request. -/
def sends (m : Manager α) (s : Save) : Bool :=
  !m.closed &&
    match s.stage with
    | .created => true
    | .waiting _ _ _ _ => false
    | .pausing _ request _ => request.isEncodable

/-- A save goes on to where it is suspended next. If it sends a request, the reply to it is
given. -/
def resume (m : Manager α) (now : Nat) (s : Save) (reply : Reply) : Step α :=
  match s.stage with
  | .created =>
    let generation := m.generation + 1
    { m with generation := generation, isSaving := true }.send now s generation (.post s.data) 0
      reply
  | .waiting generation request failures response =>
    m.receive now s generation request failures response
  | .pausing generation request failures => m.send now s generation request failures reply

/-! ## Closing -/

/-- The generation of a save that has started. -/
def Stage.generation? : Stage → Option Nat
  | .created => none
  | .waiting generation _ _ _ => some generation
  | .pausing generation _ _ => some generation

/-- Whether a save was started by the window of quiet. Only these are waited for and cancelled. -/
def isTracked (s : Save) : Bool := s.ticket.isNone

/-- The manager without the saves that the window of quiet started, and without the window. -/
def close (m : Manager α) : Manager α :=
  let cancelled := m.saves.filter isTracked
  { m with
    window := none
    saves := m.saves.filter fun s => !isTracked s
    isSaving := m.isSaving &&
      !cancelled.any fun s => (Stage.generation? s.stage).any m.isCurrent
    closed := true }

end Manager

end Spreadsheet
