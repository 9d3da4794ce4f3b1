import ChatDispatch.Dispatch
import ChatDispatch.Listening.Source

/-!
The loop that listens to a source. It dispatches each batch whole, waits after a transport error,
longer each time up to a limit, and stops when the source ends or its switch is tripped. The switch
is looked at before each fetch and while the loop waits, never inside a batch.

Where a fetch or a wait is over at the very moment at which the loop could also stop, either may
win; `Favour` says which does, for each wait of the loop in turn.
-/

namespace ChatDispatch

/-- For each wait of the loop in turn: whether what it waits for wins over a tripped switch. -/
abbrev Favour := Nat → Bool

namespace Listening

open ChatDispatch.Action

def isTripped : Action Bool := do
  let processor ← state
  return processor.clock.switch.isTripped

/-- Wait with an eye on the switch; the answer is whether it ended the wait. -/
def watch (wait : Clock → Clock.Waited) : Action Bool := do
  let processor ← state
  if processor.clock.switch.isTripped then return true
  else
    match ← Processor.pass wait with
    | .tripped => return true
    | .elapsed => return false
    | .givenUp => hang

def passPauses : List Pause → Action Bool
  | [] => return false
  | .signal sent :: pauses => do
    Processor.signal sent
    passPauses pauses
  | .log record :: pauses => do
    log record
    passPauses pauses
  | .wait 0 :: pauses => passPauses pauses
  | .wait milliseconds :: pauses => do
    if ← watch (Clock.wait true milliseconds) then return true else passPauses pauses
  | .forever :: _ => watch Clock.waitForever

/-- Fetch once: the answer, or none if the switch ended the fetch. -/
def answerOf (favoured : Bool) (fetch : Fetch) : Action (Option Answer) := do
  if (← isTripped) && fetch.isImmediate && !favoured then return none
  else if ← passPauses fetch.pauses then return none
  else return some fetch.answer

def retryWait (favoured : Bool) (milliseconds : Nat) : Action Bool := do
  if milliseconds = 0 then return (← isTripped) && !favoured
  else watch (Clock.wait true milliseconds)

def nextBackoff (settings : Settings) (backoff : Nat) : Nat :=
  min (backoff * 2) settings.backoffMax

/-- Look at the switch, then ask the source: its answer, or none if the loop stops. -/
def ask (favoured : Bool) (fetch : Fetch) : Action (Option Answer) := do
  let processor ← state
  if processor.clock.switch.isOn then
    log .shuttingDown
    return none
  else
    enter .asked
    let answer ← answerOf favoured fetch
    if answer.isNone then log .cancelled
    return answer

/-- Dispatch a batch or wait, and take down what the switch is at the end of it. -/
def engage {α : Type} (action : Action α) : Action α := do
  enter .engaged
  let value ← action
  let processor ← state
  enter (.released processor.clock.switch)
  return value

/-- Do with an answer what has to be done: dispatch the batch, or wait after the error. The result
is the wait after the next error, or none if the loop stops. -/
def respond (depth : Nat) (favour : Favour) (name : String) (turn backoff : Nat) :
    Option Answer → Action (Option Nat)
  | none => return none
  | some .ended => do
    log (.sourceClosed name)
    return none
  | some (.batch updates) => do
    log (.batchReceived updates.length)
    let _ ← engage (Processor.dispatchBatch depth updates)
    let processor ← state
    return some processor.settings.backoffInitial
  | some (.failed cause) => do
    log (.fetchFailed cause.text backoff)
    if ← engage (retryWait (favour (turn + 1)) backoff) then
      log .cancelled
      return none
    else
      let processor ← state
      return some (nextBackoff processor.settings backoff)

def takeTurn (depth : Nat) (favour : Favour) (name : String) (turn backoff : Nat) (fetch : Fetch) :
    Action (Option Nat) := do
  respond depth favour name turn backoff (← ask (favour turn) fetch)

/-- Listen to the fetches that are left, the next wait after an error being `backoff`; behind the
last of them the source has ended. -/
def listenFrom (depth : Nat) (favour : Favour) (name : String) (turn backoff : Nat) :
    List Fetch → Action Unit
  | [] => do
    let _ ← takeTurn depth favour name turn backoff { answer := .ended }
  | fetch :: fetches => do
    match ← takeTurn depth favour name turn backoff fetch with
    | none => return ()
    | some backoff => listenFrom depth favour name (turn + 2) backoff fetches

/-- How a loop is started: the switch is on from the start or not, timers count from the start,
and whoever waits for the loop may give up after some time. -/
structure Start where
  isOn : Bool := false
  timers : List Timer := []
  patience : Option Nat := none

def Start.clock (start : Start) (now : Nat) : Clock where
  now := now
  deadline := start.patience.map (now + ·)
  timers := (start.timers.map fun timer => { timer with due := now + timer.due }).mergeSort
    fun a b => decide (a.due ≤ b.due)
  switch := { isOn := start.isOn, isClosed := false }

def listen (depth : Nat) (favour : Favour) (start : Start) (source : Source) : Action Unit := do
  update fun processor => { processor with clock := start.clock processor.clock.now }
  let processor ← state
  log (.listening source.name processor.settings.group)
  listenFrom depth favour source.name 0 processor.settings.backoffInitial source.fetches

/-- Leave the loop: its timers and its switch go with it. -/
def leave : Action Unit :=
  update fun processor => { processor with clock := { now := processor.clock.now } }

end Listening

end ChatDispatch
