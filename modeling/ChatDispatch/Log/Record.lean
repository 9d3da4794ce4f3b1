import ChatDispatch.Json.Basic
import ChatDispatch.Redaction.Log
import ChatDispatch.Text.Date
import ChatDispatch.Text.Numeral

/-!
The log records of the engine: what happened, at which level, and the fields it is logged with. The
lifecycle of commands is logged as events, and what an event says of a message is redacted first.
-/

namespace ChatDispatch

inductive CommandEvent where
  | dispatched (command text : String)
  | failed (command : Option String) (text stage error : String)
  deriving DecidableEq, Repr

namespace CommandEvent

def redacted : CommandEvent → CommandEvent
  | dispatched command text => dispatched command (Redaction.redactLine text)
  | failed command text stage error =>
    failed command (Redaction.redactLine text) stage (Redaction.redactLine error)

def isFailure : CommandEvent → Bool
  | dispatched .. => false
  | failed .. => true

def tree : CommandEvent → Json
  | dispatched command text =>
    .object [("command", .text command), ("text", .text text), ("type", .text "dispatched")]
  | failed command text stage error =>
    .object [("command", (command.map Json.text).getD .null), ("error", .text error),
      ("stage", .text stage), ("text", .text text), ("type", .text "failed")]

end CommandEvent

structure EventEntry where
  peer : Int
  event : CommandEvent
  deriving DecidableEq, Repr

namespace EventEntry

def ofEvent (peer : Int) (event : CommandEvent) : EventEntry := ⟨peer, event.redacted⟩

def tree (entry : EventEntry) : Json :=
  .object [("event", entry.event.tree), ("peer_id", .int entry.peer)]

end EventEntry

inductive Level where
  | warn
  | info
  | debug
  | trace
  deriving DecidableEq, Repr

namespace Level

def name : Level → String
  | warn => "WARN"
  | info => "INFO"
  | debug => "DEBUG"
  | trace => "TRACE"

/-- A larger rank is less severe. -/
def rank : Level → Nat
  | warn => 1
  | info => 2
  | debug => 3
  | trace => 4

end Level

/-- A time span in the largest unit that it reaches, from milliseconds up to seconds. -/
def spanText (milliseconds : Nat) : String :=
  if milliseconds = 0 then "0ns"
  else if milliseconds < 1000 then toString milliseconds ++ "ms"
  else
    let part := milliseconds % 1000
    let places :=
      if part = 0 then []
      else if part % 100 = 0 then '.' :: Text.Instant.padded 1 (part / 100)
      else if part % 10 = 0 then '.' :: Text.Instant.padded 2 (part / 10)
      else '.' :: Text.Instant.padded 3 part
    toString (milliseconds / 1000) ++ String.ofList places ++ "s"

inductive LogRecord where
  | notACommand (peer : Int)
  | unknownCommand (command : String)
  | bound (parameter value : String)
  | invoking (command owner method : String)
  | commandFailed (command stage error : String)
  | event (entry : EventEntry)
  | updateSkipped (kind : String)
  | methodSkipped (owner method : String)
  | moduleRegistered (owner : String) (count : Nat)
  | moduleRejected (owner error : String)
  | converterReplaced (type : String)
  | optionalKept (type : String)
  | validatorReplaced (requirement : String)
  | listening (source : String) (group : Nat)
  | shuttingDown
  | cancelled
  | batchReceived (count : Nat)
  | sourceClosed (source : String)
  | fetchFailed (error : String) (retryIn : Nat)
  | replySent (peer : Int)
  | inputEnded
  | lineUndecoded (error : String)
  deriving DecidableEq, Repr

namespace LogRecord

def level : LogRecord → Level
  | commandFailed .. | moduleRejected .. | fetchFailed .. | lineUndecoded .. => .warn
  | event entry => if entry.event.isFailure then .warn else .info
  | moduleRegistered .. | listening .. | shuttingDown | cancelled | sourceClosed .. => .info
  | notACommand .. | unknownCommand .. | invoking .. | methodSkipped .. | converterReplaced ..
  | optionalKept .. | validatorReplaced .. | batchReceived .. | replySent .. | inputEnded => .debug
  | bound .. | updateSkipped .. => .trace

def message : LogRecord → String
  | notACommand .. => "Message is not a command"
  | unknownCommand .. => "Ignoring unknown command"
  | bound .. => "Bound parameter"
  | invoking .. => "Invoking command handler"
  | commandFailed .. => "Command failed"
  | event .. => "Command event"
  | updateSkipped .. => "Skipping non-message update"
  | methodSkipped .. => "Skipping method without command name"
  | moduleRegistered .. => "Registered command module"
  | moduleRejected .. => "Command registration rejected"
  | converterReplaced .. => "Replaced parameter converter"
  | optionalKept .. => "Keeping existing optional converter"
  | validatorReplaced .. => "Replaced command validator"
  | listening .. => "Command processor listening"
  | shuttingDown => "Command processor shutting down"
  | cancelled => "Command processor cancelled"
  | batchReceived .. => "Received update batch"
  | sourceClosed .. => "Update source closed"
  | fetchFailed .. => "Failed to fetch updates"
  | replySent .. => "Sending reply"
  | inputEnded => "Line source reached end of input"
  | lineUndecoded .. => "Line is not a valid update, treating it as text"

def fields : LogRecord → List (String × Json)
  | notACommand peer => [("peer_id", .text (Text.decimal peer))]
  | unknownCommand command => [("command", .text command)]
  | bound parameter value => [("parameter", .text parameter), ("value", .text value)]
  | invoking command owner method =>
    [("command", .text command), ("method", .text method), ("owner", .text owner)]
  | commandFailed command stage error =>
    [("command", .text command), ("error", .text error), ("stage", .text stage)]
  | event entry => [("event", entry.tree), ("peer_id", .text (Text.decimal entry.peer))]
  | updateSkipped kind => [("kind", .text kind)]
  | methodSkipped owner method => [("method", .text method), ("owner", .text owner)]
  | moduleRegistered owner count => [("count", .text (toString count)), ("owner", .text owner)]
  | moduleRejected owner error => [("error", .text error), ("owner", .text owner)]
  | converterReplaced type => [("target_type", .text type)]
  | optionalKept type => [("target_type", .text type)]
  | validatorReplaced requirement => [("attribute", .text requirement)]
  | listening source group =>
    [("group_id", .text (toString group)), ("source", .text source)]
  | shuttingDown | cancelled | inputEnded => []
  | batchReceived count => [("count", .text (toString count))]
  | sourceClosed source => [("source", .text source)]
  | fetchFailed error retryIn =>
    [("error", .text error), ("retry_in", .text (spanText retryIn))]
  | replySent peer => [("peer_id", .text (Text.decimal peer))]
  | lineUndecoded error => [("error", .text error)]

end LogRecord

end ChatDispatch
